import FrontCache.Path
import FrontCache.Table
import FrontCache.Counters
/-!
The entry cache: what is known about paths of the tree, and which children
folders were last seen with. Entries and listings are kept apart, so a folder may
have a cached entry and no listing, or the reverse.

`add` and `remove` keep a path's parent listing in step with its entry: adding
appends the path to its parent's listing (starting one when there is none) unless
it is already there, and removing takes it out and drops its own listing. `move`
carries a folder's listing along to the new place, each child renamed below it.
-/
namespace FrontCache

structure EntryCache (α : Type) where
  entries : Table Path α := ∅
  listings : Table Path (List Path) := ∅
  counters : Counters := {}

namespace EntryCache

variable {α : Type}

def hasEntry (c : EntryCache α) (p : Path) : Bool := c.entries.contains p

/-- The entry of `p`, counting a hit or a miss. -/
def get (c : EntryCache α) (p : Path) : Option α × EntryCache α :=
  match c.entries.get? p with
  | some e => (some e, { c with counters := c.counters.hit })
  | none => (none, { c with counters := c.counters.miss })

/-- Stores the entry of `p`, counting an insert. -/
def put (c : EntryCache α) (p : Path) (e : α) : EntryCache α :=
  { c with entries := c.entries.insert p e, counters := c.counters.insert }

/-- Drops the entry of `p`, counting an eviction when there was one. -/
def evict (c : EntryCache α) (p : Path) : Option α × EntryCache α :=
  match c.entries.get? p with
  | some e => (some e, { c with entries := c.entries.erase p, counters := c.counters.eviction })
  | none => (none, c)

def hasListing (c : EntryCache α) (d : Path) : Bool := c.listings.contains d

def listing? (c : EntryCache α) (d : Path) : Option (List Path) := c.listings.get? d

/-- Replaces the listing of `d`. -/
def putListing (c : EntryCache α) (d : Path) (l : List Path) : EntryCache α :=
  { c with listings := c.listings.insert d l }

def childCount? (c : EntryCache α) (d : Path) : Option Nat := (c.listing? d).map List.length

/-- The listing of `d` names `p`. -/
def listingContains (c : EntryCache α) (d p : Path) : Bool :=
  match c.listing? d with
  | some l => l.contains p
  | none => false

/-- Stores the entry of `p` and lists `p` in its parent's listing. -/
def add (c : EntryCache α) (p : Path) (e : α) : EntryCache α :=
  let c := match p.parent? with
    | some d =>
      let l := (c.listing? d).getD []
      if l.contains p then c else c.putListing d (l ++ [p])
    | none => c
  c.put p e

/-- Forgets `p`: its entry, its place in its parent's listing, and its own listing. -/
def remove (c : EntryCache α) (p : Path) : EntryCache α :=
  let c := (c.evict p).2
  let c := match p.parent? with
    | some d =>
      match c.listing? d with
      | some l => c.putListing d (l.filter (· != p))
      | none => c
    | none => c
  { c with listings := c.listings.erase p }

/-- Moves the entry of `s` to `t`; a listing of `s` goes along, each child
renamed below `t`. -/
def move (c : EntryCache α) (s t : Path) (e : α) : EntryCache α :=
  let carried := c.listing? s
  let c := { c with listings := c.listings.erase s }
  let c := (c.remove s).add t e
  match carried with
  | some l => c.putListing t (l.filterMap fun q => q.fileName?.map t.join)
  | none => c

/-- Forgets every entry and listing strictly below `a`; returns how many entries
went. No eviction is counted. -/
def removeBelow (c : EntryCache α) (a : Path) : Nat × EntryCache α :=
  let entries := c.entries.retain fun q => !q.isBelow a
  let listings := c.listings.retain fun q => !q.isBelow a
  (c.entries.size - entries.size, { c with entries, listings })

def clear (c : EntryCache α) : EntryCache α := { c with entries := ∅, listings := ∅ }

def size (c : EntryCache α) : Nat := c.entries.size

def listingCount (c : EntryCache α) : Nat := c.listings.size

def resetCounters (c : EntryCache α) : EntryCache α := { c with counters := {} }

end EntryCache

end FrontCache
