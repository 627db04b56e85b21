import Ripple.Service

/-!
# Ripple.Web.Route

Which path leads to what.  A path that differs from a known one only in a slash at its end is sent
on to that one.
-/

namespace Ripple.Web

/-- What a path leads to. -/
inductive Endpoint where
  | service (form : Form)
  | metrics
  | health
  deriving DecidableEq, Repr

/-- The method that only reads. -/
def get : String := "GET"

/-- The method that starts something. -/
def post : String := "POST"

/-- The known paths with their methods. -/
def routes : List (String × String × Endpoint) :=
  [(get, "/api/v1/impact/field/full", .service (.query .field)),
   (get, "/api/v1/impact/method/full", .service (.query .method)),
   (get, "/api/v1/impact/class/full", .service (.query .class)),
   (get, "/api/v1/impact/field/writers", .service (.query .writers)),
   (get, "/api/v1/impact/field/readers", .service (.query .readers)),
   (get, "/api/v1/impact/method/upstream", .service (.query .upstream)),
   (get, "/api/v1/impact/method/downstream", .service (.query .downstream)),
   (post, "/api/v1/index/rescan", .service .rescan),
   (get, "/api/v1/index/status", .service .status),
   (get, "/metrics", .metrics),
   (get, "/healthz", .health)]

/-- Where a method and a path lead. -/
inductive Destination where
  | endpoint (e : Endpoint)
  /-- To the same method at another path. -/
  | elsewhere (path : String)
  | nowhere
  deriving DecidableEq, Repr

/-- The endpoint of a known path. -/
def endpoint? (method : String) (path : RawText) : Option Endpoint :=
  (routes.find? fun (m, p, _) => m = method && .ofText p = path).map (·.2.2)

/-- Where a method and a path lead.  No known path ends in a slash. -/
def direct (method : String) (path : RawText) : Destination :=
  match endpoint? method path with
  | some e => .endpoint e
  | none =>
    match routes.find? fun (m, p, _) => m = method && .ofText (p ++ "/") = path with
    | some (_, p, _) => .elsewhere p
    | none => .nowhere

end Ripple.Web
