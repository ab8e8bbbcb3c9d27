import FrontCache.Path
import FrontCache.Table
/-!
Uploads in flight. While a file is being written its size is known only to the
writer, so the tracker keeps one record per path: the ticket of the upload that
started it and the largest size seen. A new start on a path replaces the record;
only the holder of the current ticket can end it.
-/
namespace FrontCache

/-- The record of the upload in flight on a path. -/
structure Upload where
  ticket : Nat
  size : Nat
  deriving DecidableEq, Repr

structure Uploads where
  records : Table Path Upload := ∅
  /-- the ticket the next start hands out; tickets start at 1 -/
  nextTicket : Nat := 1

namespace Uploads

/-- Starts an upload of `p`, replacing any record of it; returns its ticket. -/
def start (u : Uploads) (p : Path) (initial : Nat) : Nat × Uploads :=
  let records := u.records.insert p ⟨u.nextTicket, initial⟩
  (u.nextTicket, { records, nextTicket := u.nextTicket + 1 })

/-- Raises the recorded size of `p` to `size` if that is larger; no record, no change. -/
def observe (u : Uploads) (p : Path) (size : Nat) : Uploads :=
  match u.records.get? p with
  | some r => { u with records := u.records.insert p { r with size := max r.size size } }
  | none => u

/-- Ends the upload of `p` if `ticket` is its current one; tells whether it did. -/
def finish (u : Uploads) (p : Path) (ticket : Nat) : Bool × Uploads :=
  match u.records.get? p with
  | some r => if r.ticket = ticket then (true, { u with records := u.records.erase p }) else (false, u)
  | none => (false, u)

/-- The size recorded for `p`, if an upload of it is in flight. -/
def size? (u : Uploads) (p : Path) : Option Nat := (u.records.get? p).map Upload.size

def isUploading (u : Uploads) (p : Path) : Bool := u.records.contains p

def count (u : Uploads) : Nat := u.records.size

end Uploads

end FrontCache
