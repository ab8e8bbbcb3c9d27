import FrontCache.Json.Reader
import FrontCache.Protocol.Pure
import FrontCache.Protocol.VolumeSession
/-!
Answering one request line: the line is read as JSON, its `op` picks the kind of
request, and the answer is written back as one line of compact JSON.
-/
namespace FrontCache.Protocol

open Json

/-- The answer to a request. -/
def answerRequest (v : Value) : Answer :=
  match str v "op" with
  | .error t => .badInput t
  | .ok op =>
    match pureAnswer op v with
    | some a => a
    | none =>
      match op with
      | "stats" => countersSession v
      | "upload_tracker" => uploadsSession v
      | "entry_cache" => entryCacheSession v
      | "content_cache" => contentCacheSession v
      | "driver" => volumeSession v
      | _ => .badInput (unknownOp op)

/-- The answer line to a request line; a line that is not JSON is a bad input. -/
def answerLine (line : String) : String :=
  match Value.parse line with
  | .ok v => ((answerRequest v).toValue []).render
  | .error _ => ((Answer.badInput "invalid JSON").toValue []).render

end FrontCache.Protocol
