import FrontCache.Protocol.Fields
import FrontCache.Uploads
import FrontCache.EntryCache
import FrontCache.ContentCache
/-!
Sessions on one part of the library at a time: counters, the upload tracker, the
entry cache and the content cache. A session request carries `ops`, a list of
steps run in order on one state; a step that fails is answered and the session
goes on. The steps on the two caches are shared with volume sessions, which run
them on the volume's own caches.
-/
namespace FrontCache.Protocol

open Json

/-- Runs a decoding, then a step on its result; a bad input leaves the state. -/
def decoded {α σ : Type} (d : Decode α) (s : σ) (k : α → Answer × σ) : Answer × σ :=
  match d with
  | .ok a => k a
  | .error t => (.badInput t, s)

/-- A step of a counters session. -/
def countersStep (op : String) (c : Counters) : Answer × Counters :=
  match op with
  | "hit" => (.ok .null, c.hit)
  | "miss" => (.ok .null, c.miss)
  | "insert" => (.ok .null, c.insert)
  | "eviction" => (.ok .null, c.eviction)
  | "rejected" => (.ok .null, c.reject)
  | "reset" => (.ok .null, {})
  | "hit_rate" => (.ok (.num (.float c.hitRate)), c)
  | "snapshot" => (.ok (countersValue c), c)
  | _ => (.badInput (unknownOp op), c)

/-- A step of an upload tracker session. -/
def uploadsStep (op : String) (v : Value) (u : Uploads) : Answer × Uploads :=
  match op with
  | "start" =>
    decoded (do
        let n ← natOr v "initial_size" 0
        return (← path v "path", n)) u fun (p, n) =>
      let (t, u) := u.start p n
      (.ok (.nat t), u)
  | "observe" =>
    decoded (do return (← path v "path", ← nat v "size")) u fun (p, n) =>
      (.ok .null, u.observe p n)
  | "finish" =>
    decoded (do return (← path v "path", ← nat v "ticket")) u fun (p, t) =>
      let (b, u) := u.finish p t
      (.ok (.bool b), u)
  | "entry" =>
    decoded (path v "path") u fun p =>
      (.ok (.opt (fun n => .obj [("path", pathValue p), ("size", .nat n)]) (u.size? p)), u)
  | "is_uploading" => decoded (path v "path") u fun p => (.ok (.bool (u.isUploading p)), u)
  | "len" => (.ok (.nat u.count), u)
  | "is_empty" => (.ok (.bool (u.count == 0)), u)
  | _ => (.badInput (unknownOp op), u)

/-- A step on an entry cache whose entries are read by `entryOf` and written by
`enc`; `none` when `op` is not an entry cache step. -/
def cacheStep {α : Type} (entryOf : Value → Decode α) (enc : α → Value) (op : String)
    (v : Value) (c : EntryCache α) : Option (Answer × EntryCache α) :=
  let atPath (k : Path → Answer × EntryCache α) : Option (Answer × EntryCache α) :=
    some (decoded (path v "path") c k)
  match op with
  | "has_entry" => atPath fun p => (.ok (.bool (c.hasEntry p)), c)
  | "get_entry" => atPath fun p =>
    let (e, c) := c.get p
    (.ok (.opt enc e), c)
  | "put_entry" => some <| decoded (do return (← path v "path", ← entryOf v)) c fun (p, e) =>
    (.ok .null, c.put p e)
  | "evict_entry" => atPath fun p =>
    let (e, c) := c.evict p
    (.ok (.opt enc e), c)
  | "has_children" => atPath fun p => (.ok (.bool (c.hasListing p)), c)
  | "get_children" => atPath fun p => (.ok (.opt (fun l => .arr (l.map pathValue)) (c.listing? p)), c)
  | "put_children" =>
    some <| decoded (do return (← strings v "children", ← path v "path")) c fun (l, p) =>
      (.ok .null, c.putListing p (l.map Path.ofString))
  | "child_count" => atPath fun p => (.ok (.opt .nat (c.childCount? p)), c)
  | "children_contains" =>
    some <| decoded (do return (← path v "dir", ← path v "path")) c fun (d, p) =>
      (.ok (.bool (c.listingContains d p)), c)
  | "add_entry" => some <| decoded (do return (← path v "path", ← entryOf v)) c fun (p, e) =>
    (.ok .null, c.add p e)
  | "remove_entry" => atPath fun p => (.ok .null, c.remove p)
  | "move_entry" =>
    some <| decoded (do return (← path v "source", ← path v "target", ← entryOf v)) c
      fun (s, t, e) => (.ok .null, c.move s t e)
  | "remove_descendants" => atPath fun p =>
    let (n, c) := c.removeBelow p
    (.ok (.nat n), c)
  | "clear" => some (.ok .null, c.clear)
  | "len" => some (.ok (.nat c.size), c)
  | "is_empty" => some (.ok (.bool (c.size == 0)), c)
  | "listing_count" => some (.ok (.nat c.listingCount), c)
  | "stats" => some (.ok (countersValue c.counters), c)
  | "stats_reset" => some (.ok .null, c.resetCounters)
  | _ => none

/-- The bytes a content source yields, or its failure: `fail` is `not_found` for
absence and any other text for a store failure with that message. -/
def sourceOf (v : Value) (p : Path) : Decode (Except Error (List UInt8)) := do
  let b ← bytes v
  match field? v "fail" with
  | some (.str "not_found") => pure (.error (.notFound p))
  | some (.str m) => pure (.error (.io .other m))
  | some _ => throw (mustBe "fail" "a string")
  | none => pure (.ok b)

/-- A step on a content cache, with the extra fields of its answer; `none` when
`op` is not a content cache step. -/
def contentStep (op : String) (v : Value) (c : ContentCache) :
    Option ((Answer × List (String × Value)) × ContentCache) :=
  let plain (k : Answer × ContentCache) := ((k.1, []), k.2)
  let atPath (k : Path → Answer × ContentCache) :=
    some (plain (decoded (path v "path") c k))
  match op with
  | "fetch" =>
    let d : Decode (Path × Nat × Except Error (List UInt8)) := do
      let p ← path v "path"
      let n ← nat v "expected_size"
      return (p, n, ← sourceOf v p)
    match d with
    | .error t => some ((.badInput t, []), c)
    | .ok (p, n, source) =>
      let ((r, opened), c) := c.fetch p n source
      match r with
      | .ok b => some ((.ok (.obj [("hex", hexValue b), ("opened", .bool opened)]), []), c)
      | .error e => some ((.failed e, [("opened", .bool opened)]), c)
  | "invalidate" => atPath fun p =>
    let (b, c) := c.invalidate p
    (.ok (.bool b), c)
  | "contains" => atPath fun p => (.ok (.bool (c.contains p)), c)
  | "dispose" => some (plain (.ok .null, c.dispose))
  | "is_enabled" => some (plain (.ok (.bool c.isEnabled), c))
  | "has_root" => some (plain (.ok (.bool c.isEnabled), c))
  | "has_blob_path" => atPath fun _ => (.ok (.bool c.isEnabled), c)
  | "blob_count" => some (plain (.ok (.opt .nat c.blobCount?), c))
  | "stats" => some (plain (.ok (countersValue c.counters), c))
  | "key" => atPath fun p => (.ok (.str (ContentCache.key p)), c)
  | _ => none

/-- Runs the steps of a session in order; each answer gets the extra fields that
`extra` gives from its step's answer and the state after it. -/
def runSteps {σ : Type} (step : Value → σ → (Answer × List (String × Value)) × σ)
    (extra : σ → List (String × Value)) : List Value → σ → List Value
  | [], _ => []
  | v :: rest, s =>
    let ((a, own), s) := step v s
    a.toValue (own ++ extra s) :: runSteps step extra rest s

/-- A session: its state from the request's own fields, then its `ops`. -/
def session {σ : Type} (v : Value) (init : Decode σ)
    (step : Value → σ → (Answer × List (String × Value)) × σ)
    (extra : σ → List (String × Value)) : Answer :=
  Answer.ofDecode do
    let s ← init
    match field? v "ops" with
    | some (.arr ops) => return .ok (.obj [("steps", .arr (runSteps step extra ops s))])
    | some _ => throw (mustBe "ops" "an array")
    | none => throw (missing "ops")

/-- A step whose operation name must be read first. -/
def named {σ : Type} (f : String → Value → σ → (Answer × List (String × Value)) × σ)
    (v : Value) (s : σ) : (Answer × List (String × Value)) × σ :=
  match opName v with
  | .ok op => f op v s
  | .error t => ((.badInput t, []), s)

def countersSession (v : Value) : Answer :=
  session v (pure ({} : Counters))
    (named fun op _ c => let (a, c) := countersStep op c; ((a, []), c)) fun _ => []

def uploadsSession (v : Value) : Answer :=
  session v (pure ({} : Uploads))
    (named fun op v u => let (a, u) := uploadsStep op v u; ((a, []), u)) fun _ => []

/-- The entry of an entry cache session: an unsigned 64-bit integer. -/
def numberEntry (v : Value) : Decode Nat := nat v "entry"

def entryCacheSession (v : Value) : Answer :=
  session v (pure ({} : EntryCache Nat))
    (named fun op v c =>
      match cacheStep numberEntry .nat op v c with
      | some (a, c) => ((a, []), c)
      | none => ((.badInput (unknownOp op), []), c))
    fun c => [("len", .nat c.size), ("listings", .nat c.listingCount)]

def contentCacheSession (v : Value) : Answer :=
  session v (do return if ← boolOr v "disabled" false then .disabled else .enabled)
    (named fun op v c =>
      match contentStep op v c with
      | some r => r
      | none => ((.badInput (unknownOp op), []), c))
    fun _ => []

end FrontCache.Protocol
