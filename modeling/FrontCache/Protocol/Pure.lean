import FrontCache.Protocol.Fields
import FrontCache.Options.Json
import FrontCache.ContentCache
/-!
Requests answered from their fields alone: what a path text normalizes to, joins
and comparisons of paths, the checks on names, reading options, and what a failure
of each kind reports.
-/
namespace FrontCache.Protocol

open Json

/-- Everything a path tells about itself. -/
def describePath (p : Path) : Value :=
  .obj [("as_str", .str p.asStr), ("display", .str p.display), ("absolute", .str p.display),
    ("is_root", .bool p.isRoot), ("parent", .opt pathValue p.parent?),
    ("file_name", .opt .str p.fileName?), ("components", .arr (p.parts.map .str)),
    ("component_count", .nat p.count),
    ("split", .opt (fun (q, n) => .arr [pathValue q, .str n]) p.split?),
    ("is_apple_double", .bool p.isSidecar), ("key", .str (ContentCache.key p))]

/-- A failure from the fields of an `error_info` request; the kind comes first. -/
def errorOf (v : Value) : Decode Error := do
  let kind ← str v "kind"
  let atPath (f : Path → Error) : Decode Error := return f (← path v "path")
  match kind with
  | "NotFound" => atPath .notFound
  | "AlreadyExists" => atPath .alreadyExists
  | "NotADirectory" => atPath .notADirectory
  | "DirectoryNotEmpty" => atPath .directoryNotEmpty
  | "IsADirectory" => atPath .isADirectory
  | "AccessDenied" => atPath .accessDenied
  | "ReadOnly" => atPath .readOnly
  | "Unsupported" =>
    let p ← path v "path"
    return .unsupported p (← str v "reason")
  | "Io" =>
    let k ← str v "io_kind"
    match IoKind.ofName? k with
    | some k => return .io k (← strOr v "message" "")
    | none => throw "unknown `io_kind`"
  | other => throw ("unknown error kind `" ++ other ++ "`")

/-- What a failure reports, and what it becomes as a store failure. -/
def describeError (e : Error) : Value :=
  let (k, m) := e.asIo
  .obj [("kind", .str e.kindName), ("display", .str e.message),
    ("category", .str e.category.name), ("errno", .nat e.category.errno),
    ("is_not_found", .bool e.isNotFound),
    ("io_category", match e with
      | .io k _ => .str k.category.name
      | _ => .null),
    ("io_kind", .str k.name), ("io_display", .str m)]

/-- The answer to a request that needs no state, if `op` names one. -/
def pureAnswer (op : String) (v : Value) : Option Answer :=
  let answer (d : Decode Value) : Option Answer := some (Answer.ofDecode (d.map .ok))
  match op with
  | "path" => answer do return describePath (← path v "path")
  | "path_join" => answer do
    let p ← path v "path"
    let q := p.join (← str v "name")
    return .obj [("display", .str q.display), ("as_str", .str q.asStr)]
  | "path_starts_with" => answer do
    let p ← path v "path"
    return .bool (p.isBelow (← path v "ancestor"))
  | "path_eq" => answer do
    let a ← path v "a"
    return .bool (a == (← path v "b"))
  | "name_check" => answer do
    let n ← str v "name"
    return .obj [("is_component_name", .bool (isComponentName n)),
      ("is_apple_double_name", .bool (isSidecarName n))]
  | "options_from_env" => answer do
    match field? v "env" with
    | some (.obj env) => return (Options.ofEnv env).toValue
    | _ => throw (missing "env")
  | "options_parse" => some <| Answer.ofDecode do
    match Options.ofText (← str v "json") with
    | .ok o => return .ok o.toValue
    | .error e => return .unreadable e.message
  | "error_info" => answer do return describeError (← errorOf v)
  | _ => none

end FrontCache.Protocol
