import FrontCache.Protocol.Caches
import FrontCache.Options.Json
import FrontCache.Mount
/-!
Sessions on a mounted volume over an empty store. The volume's options come from
`env` (a map of switches), else from `options` (an object or an array of
switches, read as a value already parsed), else all are off. Steps are the volume's operations, upload handles named by number,
the store's hooks and probes, and the steps of the two caches prefixed with
`cache_` and `content_`. Every answer carries the store's call counts after it.
-/
namespace FrontCache.Protocol

open Json

def callsValue (c : Calls) : Value :=
  .obj [("root", .nat c.root), ("list", .nat c.listing), ("create_folder", .nat c.createFolder),
    ("remove", .nat c.remove), ("has_children", .nat c.hasChildren), ("copy", .nat c.copy),
    ("move_entry", .nat c.moveEntry), ("move_folder", .nat c.moveFolder),
    ("rename", .nat c.rename), ("download", .nat c.download), ("upload", .nat c.upload),
    ("total", .nat c.total)]

def seenValue : Store.Seen → Value
  | .folder p => .obj [("path", pathValue p), ("dir", .bool true)]
  | .file p d => .obj [("path", pathValue p), ("hex", hexValue d)]

def metadataValue : Volume.Metadata → Value
  | .entry e => .obj [("entry", entryValue e)]
  | .provisional p n => .obj [("provisional", .obj [("path", pathValue p), ("size", .nat n)])]

/-- Ways of use, by name. -/
def accessOf (v : Value) : Decode (List Volume.Access) :=
  match items? v "modes" with
  | some items =>
    items.mapM fun
      | .str "Read" => pure .read
      | .str "Write" => pure .write
      | .str "Execute" => pure .execute
      | _ => throw "field `modes` must hold Read, Write or Execute"
  | none => throw (missing "modes")

/-- `t` occurs in `s`. -/
def occursIn (t : List Char) : List Char → Bool
  | [] => t.isEmpty
  | c :: rest => t.isPrefixOf (c :: rest) || occursIn t rest

/-- The listing filter named `filter`, with its text `value`, on a path's text. -/
def filterOf (filter value : String) (p : Path) : Bool :=
  match filter with
  | "prefix" => p.asStr.startsWith value
  | "suffix" => p.asStr.endsWith value
  | "contains" => occursIn value.toList p.asStr.toList
  | "apple_double" => p.isSidecar
  | "none" => false
  | _ => true

abbrev Reply := (Answer × List (String × Value)) × Mount

/-- Runs a volume computation decoded from the step. -/
def onVolume {α : Type} (m : Mount) (d : Decode (VolM α)) (f : α → Value) : Reply :=
  match d with
  | .error t => ((.badInput t, []), m)
  | .ok x =>
    let (r, m) := m.run x
    ((Answer.ofResult f r, []), m)

/-- Changes the store by a hook that may fail with a message. -/
def onHook (m : Mount) (d : Decode (ExceptT String (StateM Store) Unit)) : Reply :=
  match d with
  | .error t => ((.badInput t, []), m)
  | .ok x =>
    let (r, s) := (x.run).run m.volume.store
    let m := { m with volume := { m.volume with store := s } }
    match r with
    | .ok () => ((.ok .null, []), m)
    | .error t => ((.panicked t, []), m)

/-- Reads the store without changing anything. -/
def onStore (m : Mount) (d : Decode (Store → Value)) : Reply :=
  match d with
  | .error t => ((.badInput t, []), m)
  | .ok f => ((.ok (f m.volume.store), []), m)

/-- Replaces the store by a function of it. -/
def setStore (m : Mount) (d : Decode (Store → Store)) : Reply :=
  match d with
  | .error t => ((.badInput t, []), m)
  | .ok f => ((.ok .null, []), { m with volume := { m.volume with store := f m.volume.store } })

def noHandle (n : Nat) : String := "no open upload handle " ++ toString n

/-- Acts on an open upload handle. -/
def onHandle (m : Mount) (v : Value) (k : Nat → Handle → Reply) : Reply :=
  match nat v "handle" with
  | .error t => ((.badInput t, []), m)
  | .ok n =>
    match m.handle? n with
    | some h => k n h
    | none => ((.badInput (noHandle n), []), m)

/-- One step of a volume session. -/
def volumeStep (op : String) (v : Value) (m : Mount) : Reply :=
  match op with
  | "resolve" => onVolume m (return Volume.resolve (← path v "path")) entryValue
  | "refresh" => onVolume m (return Volume.refresh (← path v "path")) entryValue
  | "exists" => onVolume m (return Volume.exists? (← path v "path")) .bool
  | "metadata" => onVolume m (return Volume.metadata (← path v "path")) metadataValue
  | "check_access" => onVolume m (do
      let p ← path v "path"
      return Volume.checkAccess p (← accessOf v)) fun _ => .null
  | "list" => onVolume m (do
      let useCache ← boolOr v "use_cache" true
      return Volume.list (← path v "path") useCache) fun l => .arr (l.map pathValue)
  | "list_filtered" => onVolume m (do
      let f ← str v "filter"
      let keep := filterOf f (← strOr v "value" "")
      return Volume.listFiltered (← path v "path") keep) fun l => .arr (l.map pathValue)
  | "create_dir" => onVolume m (return Volume.createDir (← path v "path")) entryValue
  | "delete" => onVolume m (return Volume.delete (← path v "path")) fun _ => .null
  | "copy" => onVolume m (do
      let replace ← boolOr v "replace" false
      let s ← path v "source"
      return Volume.copy s (← path v "target") replace) fun _ => .null
  | "move" => onVolume m (do
      let replace ← boolOr v "replace" false
      let s ← path v "source"
      return Volume.move s (← path v "target") replace) fun _ => .null
  | "rename" => onVolume m (do
      let s ← path v "source"
      return Volume.rename s (← path v "target")) entryValue
  | "register_entry" => onVolume m (do
      let p ← path v "path"
      return Volume.registerEntry p (← entryOf v)) fun _ => .null
  | "open_read" => onVolume m (return Volume.openRead (← path v "path")) hexValue
  | "open_write" =>
    let d : Decode (Path × Bool × Bool) := do
      let r ← boolOr v "replace" false
      let a ← boolOr v "append" false
      return (← path v "path", r, a)
    match d with
    | .error t => ((.badInput t, []), m)
    | .ok (p, r, a) =>
      let (n, res, m) := m.openWrite p r a
      ((Answer.ofResult (fun pos => .obj [("handle", .nat n), ("position", .nat pos)]) res, []), m)
  | "write" =>
    match bytes v with
    | .error t => ((.badInput t, []), m)
    | .ok b =>
      onHandle m v fun n _ =>
        match m.write n b with
        | some (pos, m) => ((.ok (.obj [("position", .nat pos)]), []), m)
        | none => ((.badInput (noHandle n), []), m)
  | "flush" => onHandle m v fun _ _ => ((.ok .null, []), m)
  | "position" => onHandle m v fun _ h =>
    ((.ok (.obj [("path", pathValue h.path), ("position", .nat h.position)]), []), m)
  | "commit" => onHandle m v fun n _ =>
    match m.commit n with
    | some (r, m) => ((Answer.ofResult (.opt entryValue) r, []), m)
    | none => ((.badInput (noHandle n), []), m)
  | "abandon" => onHandle m v fun n _ =>
    match m.abandon n with
    | some m => ((.ok .null, []), m)
    | none => ((.badInput (noHandle n), []), m)
  | "uploads_len" => ((.ok (.nat m.volume.uploads.count), []), m)
  | "is_uploading" => onVolume m (do
      let p ← path v "path"
      return do return (← get).uploads.isUploading p) .bool
  | "upload_entry" => onVolume m (do
      let p ← path v "path"
      return do return ((← get).uploads.size? p).map (p, ·))
      (.opt fun (p, n) => .obj [("path", pathValue p), ("size", .nat n)])
  | "ext_write" => onHook m (do
      let p ← path v "path"
      return Store.externalWrite p (← bytes v))
  | "ext_mkdir" => onHook m (return Store.externalMkdir (← path v "path"))
  | "ext_remove" => setStore m (do
      let p ← path v "path"
      return fun s => s.externalRemove p)
  | "report_name" => setStore m (do
      let p ← path v "path"
      let n ← str v "name"
      return fun s => s.reportName p n)
  | "lookup_miss" => setStore m (do
      let miss ← boolOr v "miss" true
      let p ← path v "path"
      return fun s => s.setLookupMiss p miss)
  | "truncate" => setStore m (do
      let limit ← nat? v "limit"
      return fun s => { s with downloadLimit := limit })
  | "async_copy" => setStore m (do
      let on ← boolOr v "on" true
      return fun s => { s with asyncCopy := on })
  | "complete_async" => onVolume m (pure Volume.completeCopies) .nat
  | "reset_calls" => setStore m (pure fun s => { s with calls := {} })
  | "backend_contains" => onStore m (do
      let p ← path v "path"
      return fun s => .bool (s.contains p))
  | "backend_read" => onStore m (do
      let p ← path v "path"
      return fun s => .opt hexValue (s.readFile? p))
  | "backend_children" => onStore m (do
      let p ← path v "path"
      return fun s => .opt (fun l => .arr (l.map .str)) (s.childNames? p))
  | "backend_root" => onVolume m (pure (Volume.onStore Store.rootEntry)) entryValue
  | "tree" => onStore m (pure fun s => .arr (s.walk.map seenValue))
  | "options" => ((.ok (Options.toValue m.volume.options), []), m)
  | _ =>
    let cacheOp := if op.startsWith "cache_" then some (op.drop 6).toString else none
    let contentOp := if op.startsWith "content_" then some (op.drop 8).toString else none
    let unknown : Reply := ((.badInput (unknownOp op), []), m)
    match cacheOp, contentOp with
    | some c, _ =>
      match cacheStep entryOf entryValue c v m.volume.entries with
      | some (a, entries) => ((a, []), { m with volume := { m.volume with entries } })
      | none => unknown
    | _, some c =>
      match contentStep c v m.volume.content with
      | some (a, content) => (a, { m with volume := { m.volume with content } })
      | none => unknown
    | none, none => unknown

/-- The options of a volume session. -/
def sessionOptions (v : Value) : Except Answer Options :=
  match field? v "env" with
  | some (.obj env) => .ok (Options.ofEnv env)
  | some _ => .error (.badInput (mustBe "env" "an object"))
  | none =>
    match field? v "options" with
    | some o => (Options.ofValue o).mapError fun e => .unreadable e.message
    | none => .ok {}

def volumeSession (v : Value) : Answer :=
  match sessionOptions v with
  | .error a => a
  | .ok o =>
    session v (pure (Mount.create o)) (named volumeStep)
      fun m => [("calls", callsValue m.volume.store.calls)]

end FrontCache.Protocol
