import FrontCache.Volume.Change
import FrontCache.Volume.Content
/-!
A mounted volume and the upload handles open on it. Handles are numbered in the
order they are asked for, from 0; an open that fails still uses up its number, so
a number names at most one handle ever. A handle leaves the table when it is
committed, whether the commit succeeds or not, or abandoned.
-/
namespace FrontCache

structure Mount where
  volume : Volume
  handles : Table Nat Handle := ∅
  nextHandle : Nat := 0

namespace Mount

def create (o : Options) : Mount := { volume := Volume.create o }

/-- Runs a volume computation on the mounted volume. -/
def run {α : Type} (m : Mount) (x : VolM α) : Except Error α × Mount :=
  let (r, v) := (x.run).run m.volume
  (r, { m with volume := v })

/-- Opens an upload to `p` under the next number; returns the number and, when the
open succeeded, the starting position. -/
def openWrite (m : Mount) (p : Path) (replace append : Bool) : Nat × Except Error Nat × Mount :=
  let n := m.nextHandle
  let m := { m with nextHandle := n + 1 }
  match m.run (Volume.openWrite p replace append) with
  | (.ok h, m) => (n, .ok h.position, { m with handles := m.handles.insert n h })
  | (.error e, m) => (n, .error e, m)

def handle? (m : Mount) (n : Nat) : Option Handle := m.handles.get? n

/-- Writes bytes through an open handle; returns its new position. -/
def write (m : Mount) (n : Nat) (bytes : List UInt8) : Option (Nat × Mount) :=
  (m.handle? n).map fun h =>
    let (h, v) := m.volume.write h bytes
    (h.position, { m with volume := v, handles := m.handles.insert n h })

/-- Commits an open handle, which leaves the table. -/
def commit (m : Mount) (n : Nat) : Option (Except Error (Option Entry) × Mount) :=
  (m.handle? n).map fun h =>
    m.run (Volume.commit h) |>.map id fun m => { m with handles := m.handles.erase n }

/-- Abandons an open handle: its upload record ends and its bytes are dropped. -/
def abandon (m : Mount) (n : Nat) : Option Mount :=
  (m.handle? n).map fun h =>
    let m := (m.run (Volume.close h)).2
    { m with handles := m.handles.erase n }

end Mount

end FrontCache
