import CueCheck.Service.Route

/-!
What a request passes on its way to the routes: the check of its key, the check of its host,
compression, and the rules on requests from other origins.
-/

namespace CueCheck.Service

/-- Something that answers requests. -/
abbrev Responder := Request → Except Failure Response

/-- The addresses that need no key. -/
def publicPaths : List String :=
  ["/api/v1/", "/api/v1/health", "/docs", "/openapi.json", "/redoc"]

def isPublic (path : Text) : Bool := publicPaths.any fun p => p.toList == path

/-- Lets a request through if its address is public, no key is required, or it carries the key. -/
def authenticate (settings : Settings) (next : Responder) : Responder := fun request =>
  if isPublic request.path then next request
  else
    match settings.requiredKey, request.header? "x-api-key" with
    | none, _ => next request
    | some _, none | some _, some [] =>
      .ok <| .detail 401 <| .ofString
        "Missing X-API-Key header. Please provide API key for authentication."
    | some required, some given =>
      if given = required then next request
      else .ok <| .detail 401 <| .ofString "Invalid API key. Please check your X-API-Key header."

/-- Whether a host is allowed: named itself, or a subdomain of a name after `*`. -/
def allowsHost (allowed : List Text) (host : Text) : Bool :=
  allowed.any fun name =>
    host == name ||
      match name with
      | '*' :: domain => domain.isSuffixOf host
      | _ => false

/-- In production, lets a request through only for an allowed host; a host that is allowed with
`www.` in front is sent there. -/
def checkHost (settings : Settings) (next : Responder) : Responder := fun request =>
  let allowed := settings.allowedHosts
  if settings.environment != "production".toList || allowed.isEmpty || allowed.contains ['*'] then
    next request
  else
    let host := ((request.header? "host").getD []).takeWhile (· != ':')
    if allowsHost allowed host then next request
    else if allowed.contains ("www.".toList ++ host) then .ok .redirect
    else .ok (.plain 400 "Invalid host header".toList)

/-- The fewest bytes that are worth compressing. -/
def minCompressedSize : Nat := 1000

/-- Compresses a large response for a client that takes it so. -/
def compress (next : Responder) : Responder := fun request =>
  let accepted := (request.header? "accept-encoding").getD []
  if (Text.search (Text.after? "gzip".toList) accepted).isNone then next request
  else (next request).map fun r =>
    if r.content.size < minCompressedSize then r else { r with compressed := true }

/-- Whether any origin may send requests. -/
def anyOrigin (settings : Settings) : Bool := settings.corsOrigins.contains ['*']

def allowsOrigin (settings : Settings) (origin : Text) : Bool :=
  anyOrigin settings || settings.corsOrigins.contains origin

/-- The origin that a response names as allowed: the one that asks, or any. -/
def allowedOrigin (settings : Settings) (origin : Text) : Option Text :=
  if anyOrigin settings && !settings.corsAllowCredentials then some ['*']
  else if allowsOrigin settings origin then some origin
  else none

/-- The methods that a star stands for. -/
def allMethods : List String := ["DELETE", "GET", "HEAD", "OPTIONS", "PATCH", "POST", "PUT"]

def allowsMethod (settings : Settings) (method : Text) : Bool :=
  if settings.corsAllowMethods.contains ['*'] then allMethods.contains (String.ofList method)
  else settings.corsAllowMethods.contains method

/-- The headers that a request may always have. -/
def safeHeaders : List String :=
  ["accept", "accept-language", "content-language", "content-type"]

/-- The parts of a list with commas. -/
def commaParts : Text → List Text
  | [] => [[]]
  | c :: rest => if c = ',' then [] :: commaParts rest else Text.consLine c (commaParts rest)

def allowsHeaders (settings : Settings) (requested : Text) : Bool :=
  settings.corsAllowHeaders.contains ['*'] ||
    let allowed := settings.corsAllowHeaders.map (·.map Char.toLower)
    (commaParts requested).all fun name =>
      let name := Text.trim (name.map Char.toLower)
      allowed.contains name || safeHeaders.contains (String.ofList name)

/-- The answer to a browser that asks whether it may send a request. -/
def preflight (settings : Settings) (request : Request) (origin method : Text) : Response :=
  let headers := request.header? "access-control-request-headers"
  let failures :=
    (if allowsOrigin settings origin then [] else ["origin"]) ++
      (if allowsMethod settings method then [] else ["method"]) ++
      if headers.all (allowsHeaders settings) then [] else ["headers"]
  let response : Response :=
    if failures.isEmpty then .plain 200 "OK".toList
    else .plain 400 ("Disallowed CORS ".toList ++ (", ".intercalate failures).toList)
  { response with allowedOrigin := allowedOrigin settings origin }

/-- Answers requests from other origins by the rules on them, if there are any. -/
def shareAcrossOrigins (settings : Settings) (next : Responder) : Responder := fun request =>
  match settings.corsEnabled, request.header? "origin" with
  | true, some origin =>
    match request.method == "OPTIONS".toList, request.header? "access-control-request-method" with
    | true, some method => .ok (preflight settings request origin method)
    | _, _ =>
      (next request).map fun r =>
        { r with
          allowedOrigin := allowedOrigin settings origin
          exposedHeaders := some "Content-Disposition".toList }
  | _, _ => next request

/-- The response of the service to a request. A failure is one that it has no answer to. -/
def respond (settings : Settings) : Responder :=
  authenticate settings <| checkHost settings <| compress <|
    shareAcrossOrigins settings <| route settings

end CueCheck.Service
