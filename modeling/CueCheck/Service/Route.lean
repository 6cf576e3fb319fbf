import CueCheck.Service.Endpoint

/-!
The addresses of the endpoints and the methods that they take.
-/

namespace CueCheck.Service

/-- An address, the methods that it takes, and the endpoint there. -/
structure Route where
  path : String
  methods : List String
  endpoint : Endpoint
deriving DecidableEq, Repr

def routes : List Route := [
  ⟨"/openapi.json", ["GET", "HEAD"], .documentation⟩,
  ⟨"/docs", ["GET", "HEAD"], .documentation⟩,
  ⟨"/docs/oauth2-redirect", ["GET", "HEAD"], .documentation⟩,
  ⟨"/redoc", ["GET", "HEAD"], .documentation⟩,
  ⟨"/api/v1/health", ["GET"], .health⟩,
  ⟨"/api/v1/", ["GET"], .health⟩,
  ⟨"/api/v1/subtitles/analyze", ["POST"], .analyze⟩,
  ⟨"/api/v1/subtitles/upload", ["POST"], .upload⟩,
  ⟨"/api/v1/subtitles/fix", ["POST"], .fix⟩,
  ⟨"/api/v1/subtitles/export", ["POST"], .download⟩]

/-- The route at an address. -/
def routeAt? (path : Text) : Option Route := routes.find? fun route => route.path.toList == path

/-- The address with its final slashes removed, or with one added if it has none. -/
def otherSlash (path : Text) : Text :=
  if path.getLast? = some '/' then (path.reverse.dropWhile (· == '/')).reverse else path ++ ['/']

/-- The response at the address of a request, with its method and its body. -/
def route (settings : Settings) (request : Request) : Except Failure Response :=
  match routeAt? request.path with
  | some found =>
    if found.methods.contains (String.ofList request.method) then
      found.endpoint.respond settings request.body
    else .ok (.detail 405 (.ofString "Method Not Allowed"))
  | none =>
    if request.path != ['/'] && (routeAt? (otherSlash request.path)).isSome then .ok .redirect
    else .ok (.detail 404 (.ofString "Not Found"))

end CueCheck.Service
