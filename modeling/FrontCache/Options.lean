/-!
The switches that change how the cached file tree behaves. All are off unless
set.
-/
namespace FrontCache

structure Options where
  /-- Treat sidecar names (`._x`, `.DS_Store`, …) as absent without asking the store. -/
  ignoreSidecars : Bool := false
  /-- Read contents straight from the store instead of through the content cache. -/
  disableFileCache : Bool := false
  /-- Refuse every change to the tree. -/
  readOnly : Bool := false
  deriving DecidableEq, Repr

end FrontCache
