import FrontCache.Fault
import FrontCache.Table
/-!
The store below the caches: a tree of folders and files kept as a map from paths
to nodes. A folder node lists its children's names in the order they were made;
every node has an id, handed out from a counter, that stays with it when it is
moved. What the store tells its clients about a node is an `Entry`.

The tree operations here are the store's own bookkeeping: `link` and `unlink`
keep a parent's name list in step, `insert` adds a node under a folder, `detach`
takes out a whole subtree, and `relocate` moves a subtree to a new path keeping
every id and content.
-/
namespace FrontCache

/-- What a node holds. -/
inductive Body where
  | folder (children : List String)
  | file (data : List UInt8)
  deriving DecidableEq, Repr

structure Node where
  id : Nat
  body : Body
  deriving DecidableEq, Repr

/-- What the store tells about a node: its id, its name, whether it is a folder,
and its size in bytes (0 for a folder). -/
structure Entry where
  id : Nat
  name : String := ""
  isFolder : Bool := false
  size : Nat := 0
  deriving DecidableEq, Repr

/-- The entry of a node at a path; the name is the path's last component. -/
def Node.entry (n : Node) (p : Path) : Entry :=
  match n.body with
  | .folder _ => ⟨n.id, p.fileName?.getD "", true, 0⟩
  | .file d => ⟨n.id, p.fileName?.getD "", false, d.length⟩

/-- Calls made to the store, by primitive. -/
structure Calls where
  root : Nat := 0
  listing : Nat := 0
  createFolder : Nat := 0
  remove : Nat := 0
  hasChildren : Nat := 0
  copy : Nat := 0
  moveEntry : Nat := 0
  moveFolder : Nat := 0
  rename : Nat := 0
  download : Nat := 0
  upload : Nat := 0
  deriving DecidableEq, Repr

def Calls.total (c : Calls) : Nat :=
  c.root + c.listing + c.createFolder + c.remove + c.hasChildren + c.copy + c.moveEntry +
    c.moveFolder + c.rename + c.download + c.upload

structure Store where
  nodes : Table Path Node
  nextId : Nat := 1
  calls : Calls := {}
  /-- downloads give at most this many bytes -/
  downloadLimit : Option Nat := none
  /-- copies finish later: their entries wait in `pending` -/
  asyncCopy : Bool := false
  pending : List (Path × Entry) := []
  /-- names that listings report instead of the real ones -/
  reportedNames : Table Path String := ∅
  /-- paths that lookups do not find, though listings show them -/
  lookupMisses : List Path := []

namespace Store

/-- A store with an empty root folder of id 0. -/
def empty : Store := { nodes := (∅ : Table Path Node).insert Path.root ⟨0, .folder []⟩ }

def node? (s : Store) (p : Path) : Option Node := s.nodes.get? p

/-- The node at `p` if it is still the one `e` describes. -/
def live (s : Store) (p : Path) (e : Entry) : Except Error Node :=
  match s.node? p with
  | some n => if n.id = e.id then .ok n else .error (.notFound p)
  | none => .error (.notFound p)

/-- The child names of the folder at `p` if it is still the one `e` describes. -/
def liveFolder (s : Store) (p : Path) (e : Entry) : Except Error (List String) := do
  match (← s.live p e).body with
  | .folder cs => pure cs
  | .file _ => throw (.notADirectory p)

/-- Adds the last component of `p` to its parent folder's names. -/
def link (s : Store) (p : Path) : Except Error Store :=
  match p.split? with
  | none => .error (.alreadyExists p)
  | some (d, name) =>
    match s.node? d with
    | some ⟨id, .folder cs⟩ => .ok { s with nodes := s.nodes.insert d ⟨id, .folder (cs ++ [name])⟩ }
    | some ⟨_, .file _⟩ => .error (.notADirectory d)
    | none => .error (.notFound d)

/-- Removes the last component of `p` from its parent folder's names. -/
def unlink (s : Store) (p : Path) : Store :=
  match p.split? with
  | some (d, name) =>
    match s.node? d with
    | some ⟨id, .folder cs⟩ =>
      { s with nodes := s.nodes.insert d ⟨id, .folder (cs.filter (· != name))⟩ }
    | _ => s
  | none => s

/-- Adds a node at a free path under a folder, with a fresh id. -/
def insert (s : Store) (p : Path) (b : Body) : Except Error (Entry × Store) := do
  if s.nodes.contains p then throw (.alreadyExists p)
  let s ← s.link p
  let n : Node := ⟨s.nextId, b⟩
  pure (n.entry p, { s with nodes := s.nodes.insert p n, nextId := s.nextId + 1 })

/-- `q` is `p` or lies below it. -/
def within (q p : Path) : Bool := q == p || q.isBelow p

/-- Takes out the subtree at `p`; returns its nodes. -/
def detach (s : Store) (p : Path) : List (Path × Node) × Store :=
  let s := s.unlink p
  (s.nodes.pairs.filter fun e => within e.1 p,
    { s with nodes := s.nodes.retain fun q => !within q p })

/-- Moves the subtree at `src` to the free path `dst`, which must not lie below
`src`; ids and contents stay. Returns the entry at `dst`. -/
def relocate (s : Store) (src dst : Path) : Except Error (Entry × Store) := do
  if s.nodes.contains dst then throw (.alreadyExists dst)
  if dst.isBelow src then throw (.unsupported dst Error.intoItself)
  let s ← s.link dst
  let (moved, s) := s.detach src
  let s := moved.foldl (fun s e => { s with nodes := s.nodes.insert (e.1.reroot src dst) e.2 }) s
  match s.node? dst with
  | some n => pure (n.entry dst, s)
  | none => throw (.notFound dst)

/-- Replaces what the node at `p` holds, keeping its id; returns its new entry. -/
def overwrite (s : Store) (p : Path) (n : Node) (b : Body) : Entry × Store :=
  let n := { n with body := b }
  (n.entry p, { s with nodes := s.nodes.insert p n })

end Store

end FrontCache
