import FrontCache.Store.Basic
/-!
What clients can ask of the store. Each primitive counts one call of its kind
before it does anything, so a call that fails is counted too, and checks that the
entries it is given still describe live nodes (an entry whose node was replaced
or moved away no longer does). Listing a folder reports its children in the order
they were made, under a reported name where one is set; a lookup is a listing
followed by a search for the name.

The hooks change the store from outside, without counting calls; they stand for
other writers of the same store. A hook that cannot do its work fails with a
message after whatever it had already done.
-/
namespace FrontCache

/-- A computation on the store that may fail; what it did before failing stays. -/
abbrev StoreM := ExceptT Error (StateM Store)

namespace Store

/-- Runs a tree operation that either fails or gives a value and a new store. -/
def apply {α : Type} (f : Store → Except Error (α × Store)) : StoreM α := do
  match f (← get) with
  | .ok (a, s) => set s; pure a
  | .error e => throw e

/-- Fails unless the check passes. -/
def check {α : Type} (r : Except Error α) : StoreM α :=
  match r with
  | .ok a => pure a
  | .error e => throw e

def count (f : Calls → Calls) : StoreM Unit := modify fun s => { s with calls := f s.calls }

/-- The entry of the root folder. -/
def rootEntry : StoreM Entry := do
  count fun c => { c with root := c.root + 1 }
  match (← get).node? Path.root with
  | some n => pure (n.entry Path.root)
  | none => throw (.notFound Path.root)

/-- The entries of a folder's children, in the order they were made. -/
def listChildren (dir : Entry) (dirPath : Path) : StoreM (List Entry) := do
  count fun c => { c with listing := c.listing + 1 }
  let s ← get
  let names ← check (s.liveFolder dirPath dir)
  pure <| names.filterMap fun name =>
    let p := dirPath.join name
    (s.node? p).map fun n =>
      let e := n.entry p
      match s.reportedNames.get? p with
      | some r => { e with name := r }
      | none => e

/-- The child of a folder with the given name, as a listing shows it. -/
def lookupChild (parent : Entry) (parentPath : Path) (name : String) : StoreM (Option Entry) := do
  let found := (← listChildren parent parentPath).find? (·.name == name)
  if (← get).lookupMisses.contains (parentPath.join name) then pure none else pure found

/-- The folder that holds `p`; the root for the root. -/
def holder (p : Path) : Path := p.parent?.getD Path.root

/-- Makes a folder at a free path. -/
def createFolder (parent : Entry) (p : Path) : StoreM Entry := do
  count fun c => { c with createFolder := c.createFolder + 1 }
  let _ ← check ((← get).liveFolder (holder p) parent)
  apply fun s => s.insert p (.folder [])

/-- Removes a file or an empty folder. -/
def remove (e : Entry) (p : Path) : StoreM Unit := do
  count fun c => { c with remove := c.remove + 1 }
  match (← check ((← get).live p e)).body with
  | .folder (_ :: _) => throw (.directoryNotEmpty p)
  | _ => modify fun s => (s.detach p).2

/-- Whether a folder has children. -/
def hasChildren (dir : Entry) (p : Path) : StoreM Bool := do
  count fun c => { c with hasChildren := c.hasChildren + 1 }
  let cs ← check ((← get).liveFolder p dir)
  pure !cs.isEmpty

/-- Copies a file to `target`, first removing what is there when `replace` is set.
With copies finishing later, the entry waits in `pending` and none is returned. -/
def copy (src targetParent : Entry) (srcPath target : Path) (replace : Bool) :
    StoreM (Option Entry) := do
  count fun c => { c with copy := c.copy + 1 }
  let data ← do
    match (← check ((← get).live srcPath src)).body with
    | .file d => pure d
    | .folder _ => throw (.unsupported srcPath Error.folderSource)
  let _ ← check ((← get).liveFolder (holder target) targetParent)
  if replace && (← get).nodes.contains target then modify fun s => (s.detach target).2
  let e ← apply fun s => s.insert target (.file data)
  if (← get).asyncCopy then
    modify fun s => { s with pending := s.pending ++ [(target, e)] }
    pure none
  else pure (some e)

/-- Moves a file or folder to a free path. -/
def moveEntry (src targetParent : Entry) (srcPath target : Path) : StoreM Entry := do
  count fun c => { c with moveEntry := c.moveEntry + 1 }
  let _ ← check ((← get).live srcPath src)
  let _ ← check ((← get).liveFolder (holder target) targetParent)
  apply fun s => s.relocate srcPath target

/-- Moves a folder to a free path. -/
def moveFolder (src targetParent : Entry) (srcPath target : Path) : StoreM Entry := do
  count fun c => { c with moveFolder := c.moveFolder + 1 }
  let _ ← check ((← get).liveFolder srcPath src)
  let _ ← check ((← get).liveFolder (holder target) targetParent)
  apply fun s => s.relocate srcPath target

/-- Gives a file or folder a new path. -/
def rename (src targetParent : Entry) (srcPath target : Path) : StoreM Entry := do
  count fun c => { c with rename := c.rename + 1 }
  let _ ← check ((← get).live srcPath src)
  let _ ← check ((← get).liveFolder (holder target) targetParent)
  apply fun s => s.relocate srcPath target

/-- The bytes of a file, cut to the download limit when one is set. -/
def download (e : Entry) (p : Path) : StoreM (List UInt8) := do
  count fun c => { c with download := c.download + 1 }
  let s ← get
  match (← check (s.live p e)).body with
  | .file d => pure (match s.downloadLimit with | some n => d.take n | none => d)
  | .folder _ => throw (.isADirectory p)

/-- Opens an upload to `p`: the bytes it starts from, which are the file's when
appending and none otherwise. An existing file needs `append` or `replace`. -/
def upload (parent : Entry) (p : Path) (replace append : Bool) : StoreM (List UInt8) := do
  count fun c => { c with upload := c.upload + 1 }
  let _ ← check ((← get).liveFolder (holder p) parent)
  match (← get).node? p with
  | some ⟨_, .folder _⟩ => throw (.isADirectory p)
  | some ⟨_, .file d⟩ =>
    if append then pure d else if replace then pure [] else throw (.alreadyExists p)
  | none => pure []

/-- Finishes an upload: the node at `p`, whatever it holds, becomes the file with
these bytes and keeps its id; with no node there, a new file is made. -/
def commitUpload (p : Path) (bytes : List UInt8) : StoreM (Option Entry) := do
  match (← get).node? p with
  | some n =>
    let (e, s) := (← get).overwrite p n (.file bytes)
    set s
    pure (some e)
  | none => return some (← apply fun s => s.insert p (.file bytes))

/-! ### Hooks -/

/-- Makes every missing folder on the way to `dir`, one by one. -/
def ensureFolders (dir : Path) : StoreM Unit := do
  let mut cur := Path.root
  for name in dir.parts do
    cur := cur.join name
    if !(← get).nodes.contains cur then
      let _ ← apply fun s => s.insert cur (.folder [])

/-- Runs a hook step; a failure becomes the hook's message. -/
def hookStep (x : StoreM Unit) (msg : Error → String) : ExceptT String (StateM Store) Unit :=
  ExceptT.mk do
    match ← x.run with
    | .ok () => pure (.ok ())
    | .error e => pure (.error (msg e))

/-- Writes a file from outside, making missing folders; an existing file keeps its id. -/
def externalWrite (p : Path) (data : List UInt8) : ExceptT String (StateM Store) Unit := do
  let failed (e : Error) : String := "external_write(" ++ p.display ++ ") failed: " ++ e.message
  match p.parent? with
  | some d => hookStep (ensureFolders d) failed
  | none => pure ()
  match (← get).node? p with
  | some n =>
    match n.body with
    | .folder _ => throw ("external_write(" ++ p.display ++ ") would replace a folder")
    | .file _ => modify fun s => (s.overwrite p n (.file data)).2
  | none => hookStep (do let _ ← apply fun s => s.insert p (.file data)) failed

/-- Makes a folder from outside, with every missing folder above it. -/
def externalMkdir (p : Path) : ExceptT String (StateM Store) Unit :=
  hookStep (ensureFolders p) fun e => "external_mkdir(" ++ p.display ++ ") failed: " ++ e.message

/-- Removes a subtree from outside; the root takes everything with it. -/
def externalRemove (s : Store) (p : Path) : Store := (s.detach p).2

def reportName (s : Store) (p : Path) (name : String) : Store :=
  { s with reportedNames := s.reportedNames.insert p name }

def setLookupMiss (s : Store) (p : Path) (miss : Bool) : Store :=
  if miss then
    if s.lookupMisses.contains p then s else { s with lookupMisses := s.lookupMisses ++ [p] }
  else { s with lookupMisses := s.lookupMisses.filter (· != p) }

/-! ### Probes -/

def contains (s : Store) (p : Path) : Bool := s.nodes.contains p

def readFile? (s : Store) (p : Path) : Option (List UInt8) :=
  match s.node? p with
  | some ⟨_, .file d⟩ => some d
  | _ => none

def childNames? (s : Store) (p : Path) : Option (List String) :=
  match s.node? p with
  | some ⟨_, .folder cs⟩ => some cs
  | _ => none

/-- A node met on a walk: a folder, or a file with its bytes. -/
inductive Seen where
  | folder (p : Path)
  | file (p : Path) (data : List UInt8)

/-- The nodes below `p`, depth first, each before its children, children in the
order they were made; `depth` bounds how far down the walk goes. -/
def walkFrom (s : Store) : Nat → Path → List Seen
  | 0, _ => []
  | depth + 1, p =>
    ((s.childNames? p).getD []).flatMap fun name =>
      let q := p.join name
      match s.node? q with
      | some ⟨_, .folder _⟩ => .folder q :: s.walkFrom depth q
      | some ⟨_, .file d⟩ => [.file q d]
      | none => []

/-- Every node reachable from the root, the root itself left out. -/
def walk (s : Store) : List Seen := s.walkFrom (s.nodes.size + 1) Path.root

end Store

end FrontCache
