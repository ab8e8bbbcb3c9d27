import FrontCache.Fault
import FrontCache.Table
import FrontCache.Counters
import FrontCache.Bytes.Md5
import FrontCache.Bytes.Hex
/-!
The content cache: local copies ("blobs") of file contents, one per path. A blob
is trusted only by its length: a read that expects `n` bytes takes a blob of
length `n` as it is, drops a blob of another length, and otherwise downloads and
keeps the download only when it has exactly `n` bytes.

A cache without a blob store (disabled from the start, or disposed) passes every
read through to the source and counts nothing.
-/
namespace FrontCache

structure ContentCache where
  /-- the blobs, or `none` when the cache has no store -/
  blobs : Option (Table Path (List UInt8))
  counters : Counters := {}

namespace ContentCache

def enabled : ContentCache := { blobs := some ∅ }

def disabled : ContentCache := { blobs := none }

/-- The name of a path's blob: the MD5 digest of its absolute text, in hex. -/
def key (p : Path) : String := Hex.encode (Md5.digest p.display.toUTF8.toList)

def isEnabled (c : ContentCache) : Bool := c.blobs.isSome

def contains (c : ContentCache) (p : Path) : Bool :=
  match c.blobs with
  | some t => t.contains p
  | none => false

def blobCount? (c : ContentCache) : Option Nat := c.blobs.map Table.size

/-- Drops the blob of `p`, counting an eviction; tells whether there was one. -/
def invalidate (c : ContentCache) (p : Path) : Bool × ContentCache :=
  match c.blobs with
  | some t =>
    if t.contains p then (true, { blobs := some (t.erase p), counters := c.counters.eviction })
    else (false, c)
  | none => (false, c)

/-- Drops the blob of `p`, if any. -/
def discard (c : ContentCache) (p : Path) : ContentCache := (c.invalidate p).2

/-- Gives up the blob store; later reads pass through. -/
def dispose (c : ContentCache) : ContentCache := { c with blobs := none }

/-- What the cache holds for a read. -/
inductive Lookup where
  /-- no blob store: read the source and keep nothing -/
  | bypass
  /-- a blob of the expected length -/
  | hit (bytes : List UInt8)
  /-- read the source, then `keep` what came -/
  | miss

/-- Looks for a blob of `p` with `expected` bytes: a hit is counted; a blob of
another length is dropped and a miss counted. -/
def consult (c : ContentCache) (p : Path) (expected : Nat) : Lookup × ContentCache :=
  match c.blobs with
  | none => (.bypass, c)
  | some t =>
    match t.get? p with
    | some b =>
      if b.length = expected then (.hit b, { c with counters := c.counters.hit })
      else
        let c := c.discard p
        (.miss, { c with counters := c.counters.miss })
    | none => (.miss, { c with counters := c.counters.miss })

/-- Keeps downloaded bytes as the blob of `p` when there are `expected` of them,
counting an insert, and counts a refusal otherwise. -/
def keep (c : ContentCache) (p : Path) (expected : Nat) (bytes : List UInt8) : ContentCache :=
  match c.blobs with
  | some t =>
    if bytes.length = expected then { blobs := some (t.insert p bytes), counters := c.counters.insert }
    else { c with counters := c.counters.reject }
  | none => c

/-- A read of `p` through the cache from a source that yields `source` when read.
Returns the bytes or the source's failure, whether the source was read, and the
cache after. -/
def fetch (c : ContentCache) (p : Path) (expected : Nat) (source : Except Error (List UInt8)) :
    (Except Error (List UInt8) × Bool) × ContentCache :=
  match c.consult p expected with
  | (.bypass, c) => ((source, true), c)
  | (.hit b, c) => ((.ok b, false), c)
  | (.miss, c) =>
    match source with
    | .ok bytes => ((.ok bytes, true), c.keep p expected bytes)
    | .error e => ((.error e, true), c)

end ContentCache

end FrontCache
