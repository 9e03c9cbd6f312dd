import CompanyRegistry.Port.Router
import CompanyRegistry.Rest.Files
import CompanyRegistry.Rest.Gateway

/-!
# The JSON site

Which path leads to which endpoint. A known path with a method it does not have is refused with those it
has; `HEAD` is `GET` without the body. Every other path is that of a static file.
-/

namespace CompanyRegistry.Rest

/-- What a path leads to. The name of a company is as it stands in the path. -/
inductive Route where
  | health
  | docs
  | login
  | companies
  | company (name : List Char)
  | file
  deriving DecidableEq, Repr

namespace Route

/-- The path of the companies; that of one company is its name behind a slash. -/
def companiesPath : List Char := "/api/companies".toList

/-- The route of a path. -/
def ofPath (path : String) : Route :=
  if path = "/health" then .health
  else if path = "/api" then .docs
  else if path = "/api/internal/login" then .login
  else if path.toList = companiesPath then .companies
  else
    match companiesPath.isPrefixOf path.toList, path.toList.drop companiesPath.length with
    | true, '/' :: name => if name = [] ∨ name.contains '/' then .file else .company name
    | _, _ => .file

/-- The methods of a route, as they are told to whom uses another. -/
def methods : Route → List String
  | .health | .docs => ["GET", "HEAD"]
  | .login => ["POST"]
  | .companies => ["POST", "GET", "HEAD"]
  | .company _ => ["GET", "HEAD", "PUT", "DELETE"]
  | .file => ["GET", "HEAD"]

/-- The endpoint of a method, given the identifier in the path. -/
def endpoint? (r : Route) (method : String) : Option (String → Endpoint) :=
  match r, method with
  | .login, "POST" => some fun _ => .login
  | .companies, "POST" => some fun _ => .create
  | .companies, "GET" => some fun _ => .list
  | .company _, "GET" => some .get
  | .company _, "PUT" => some .update
  | .company _, "DELETE" => some .delete
  | _, _ => none

/-- The identifier in the path, if it is UTF-8 after decoding; routes without one have an empty one. -/
def id? : Route → Option String
  | .company name => Bytes.ofUtf8? (Http.percentDecode (Bytes.utf8 (String.ofList name)))
  | _ => some ""

end Route

/-- The path of the documentation among the files. -/
def docsPage : List String := ["swagger", "index.html"]

/-- The documentation. -/
def docs (files : Files) : Http.Response :=
  match (files.file? docsPage).bind Bytes.ofUtf8? with
  | some page =>
    { status := 200
      headers := ⟨[("content-type", Bytes.utf8 "text/html; charset=utf-8")]⟩
      body := Bytes.utf8 page }
  | none => .bare 500

/-- The response to a method that a route does not have. -/
def wrongMethod (r : Route) : Http.Response :=
  { status := 405, headers := ⟨[("allow", Bytes.utf8 (",".intercalate r.methods))]⟩ }

/-- The response to a path whose identifier is no text. -/
def wrongPath : Http.Response :=
  { status := 400
    headers := ⟨[("content-type", Bytes.utf8 "text/plain; charset=utf-8")]⟩
    body := Bytes.utf8 "Invalid URL: Invalid UTF-8 in `id`" }

/-- Answers a request whose method is not `HEAD`. -/
def answer (files : Files) : Port.Handler := fun m q s =>
  let r := Route.ofPath q.path
  match r with
  | .file => (files.serve q, s)
  | .health => (if q.method = "GET" then .bare 200 else wrongMethod r, s)
  | .docs => (if q.method = "GET" then docs files else wrongMethod r, s)
  | _ =>
    match r.endpoint? q.method, r.id? with
    | none, _ => (wrongMethod r, s)
    | some _, none => (wrongPath, s)
    | some e, some id => (e id).serve m q s

/-- The site: answers every request that makes no call. -/
def site (files : Files) : Port.Handler := fun m q s =>
  if q.method = "HEAD" then
    let (response, s) := answer files m { q with method := "GET" } s
    ({ response with body := [] }, s)
  else answer files m q s

end CompanyRegistry.Rest
