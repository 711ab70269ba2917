import All4One.Foundation.Url
import All4One.Membership.Join

open Foundation

namespace All4One.ApiRest

-- The names of the headers are in lower case. A header that has been sent several times has several
-- entries.
structure Request where
  path    : String
  query   : Option String
  headers : List (String × Bytes)
  deriving DecidableEq, Repr

structure Response where
  status : Nat
  body   : String
  deriving DecidableEq, Repr

-- `HeaderValue::to_str`, which takes visible characters of ASCII, blanks and tabs.
def headerToStr (value : Bytes) : Option String :=
  if value.all fun b => (32 ≤ b ∧ b < 127) ∨ b = 9 then
    some (String.ofList (value.map fun b => Char.ofNat b.toNat))
  else
    none

def secretHeader (request : Request) : String :=
  ((request.headers.lookup "x-all4one-secret").bind headerToStr).getD ""

def secretParam (request : Request) : Option String :=
  request.query.bind (Url.firstParam "secret")

def querySecret (request : Request) : String :=
  (secretParam request).getD ""

-- `Ok` where the handler is run.
def sharedSecretMiddleware (security : Membership.SecurityConfig) (request : Request) :
    Except Response Unit :=
  if security.mode ≠ "shared-secret" then
    .ok ()
  else if "/v1/internal/".toList <+: request.path.toList then
    .ok ()
  else
    let configured := Text.trim security.sharedSecret
    if configured = "" then
      .ok ()
    else if secretHeader request ≠ configured ∧ querySecret request ≠ configured then
      .error ⟨401, "unauthorized"⟩
    else
      .ok ()

-- The routes behind the gate in `build_router`.
def protectedRoutes : List String := [
  "/v1/nodes",
  "/v1/nodes/:id",
  "/v1/jobs",
  "/v1/jobs/:id",
  "/v1/jobs/:id/output/stream",
  "/v1/ops/events",
  "/v1/cluster/status",
  "/v1/cluster/diagnostics",
  "/v1/storage/:bucket",
  "/v1/storage/:bucket/*key"
]

-- What a route has before its first parameter.
def literalPart (route : String) : List Char :=
  route.toList.takeWhile fun c => c ≠ ':' ∧ c ≠ '*'

-- What `axum` makes of the routes: it finds the one that a path leads to. A path begins like its route,
-- up to the first parameter.
structure Router where
  route   : String → Option String
  literal : ∀ path r, route path = some r → literalPart r <+: path.toList

def Router.IsProtected (router : Router) (path : String) : Prop :=
  ∃ r ∈ protectedRoutes, router.route path = some r

end All4One.ApiRest
