import CompanyRegistry.Http.Percent
import CompanyRegistry.Http.Message

/-!
# Static files

A tree of files that is served to whom no route answers. A directory is served as its `index.html`; one
that is asked for without the slash at the end redirects to the address with it. Nothing outside the tree
can be reached.
-/

namespace CompanyRegistry.Rest

/-- Files by their path from the root. -/
structure Files where
  entries : List (List String × Bytes) := []

namespace Files

/-- The file at a path. -/
def file? (f : Files) (path : List String) : Option Bytes := f.entries.lookup path

/-- Whether some file lies below a path. -/
def isDirectory (f : Files) (path : List String) : Bool :=
  f.entries.any fun (p, _) => path.isPrefixOf p && path.length < p.length

/-- The names on the way to a file, if the address leads nowhere else: empty names and `.` lead
nowhere, `..` leads out. -/
def segments? (path : String) : Option (List String) := do
  let text ← Bytes.ofUtf8? (Http.percentDecode (Bytes.utf8 path))
  let names := ((Http.pieces '/' text.toList).map String.ofList).filter fun n => n ≠ "" ∧ n ≠ "."
  if names.contains ".." then none else some names

/-- The content type of a file, by the end of its name. -/
def contentType (name : String) : String :=
  match (name.splitOn ".").reverse with
  | "html" :: _ :: _ | "htm" :: _ :: _ => "text/html"
  | "css" :: _ :: _ => "text/css"
  | "js" :: _ :: _ => "text/javascript"
  | "json" :: _ :: _ => "application/json"
  | "svg" :: _ :: _ => "image/svg+xml"
  | "png" :: _ :: _ => "image/png"
  | "ico" :: _ :: _ => "image/x-icon"
  | "txt" :: _ :: _ => "text/plain"
  | _ => "application/octet-stream"

/-- The response with a file. -/
def fileResponse (name : String) (content : Bytes) : Http.Response :=
  { status := 200
    headers := ⟨[("content-type", Bytes.utf8 (contentType name))]⟩
    body := content }

/-- The address with a slash at its end. -/
def withSlash (q : Http.Request) : String :=
  q.path ++ "/" ++ match q.query with
    | some query => "?" ++ query
    | none => ""

/-- The response to a request for what lies at a path. -/
def respond (f : Files) (q : Http.Request) (path : List String) : Http.Response :=
  let endsInSlash := q.path.toList.getLast? = some '/'
  if f.isDirectory path ∧ ¬ endsInSlash then
    { status := 307, headers := ⟨[("location", Bytes.utf8 (withSlash q))]⟩ }
  else
    let path := if f.isDirectory path then path ++ ["index.html"] else path
    match f.file? path with
    | some content => fileResponse (path.getLastD "") content
    | none => .bare 404

/-- Serves a request. -/
def serve (f : Files) (q : Http.Request) : Http.Response :=
  if q.method = "GET" ∨ q.method = "HEAD" then
    match segments? q.path with
    | some path => f.respond q path
    | none => .bare 404
  else { status := 405, headers := ⟨[("allow", Bytes.utf8 "GET,HEAD")]⟩ }

end Files

end CompanyRegistry.Rest
