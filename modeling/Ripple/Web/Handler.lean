import Ripple.Display.Failure
import Ripple.Metrics
import Ripple.Web.Route
import Ripple.Web.Target

/-!
# Ripple.Web.Handler

The service over the web: requests in, responses out.  What goes well is written as JSON; a failure
is written with its code and text, and the code decides the status.  A failure without a code shows
nothing of itself.
-/

namespace Ripple.Web

/-- An answer to a web request. -/
structure Response where
  status : Nat
  contentType : String
  body : String
  deriving DecidableEq, Repr

/-- The status for a code. -/
def statusFor (code : Code) : Nat :=
  if code = .notFound then 404
  else if code = .conflict then 409
  else if code = .invalidParameter then 400
  else 500

/-- A character as it is written in a page. -/
def pageChar : Char → String
  | '&' => "&amp;"
  | '<' => "&lt;"
  | '>' => "&gt;"
  | '"' => "&#34;"
  | '\x27' => "&#39;"
  | c => c.toString

/-- A text as it is written in a page. -/
def pageText (s : String) : String := Text.join "" (s.toList.map pageChar)

namespace Response

/-- A response with a JSON value. -/
def json (status : Nat) (v : Json) : Response :=
  ⟨status, "application/json; charset=utf-8", v.compact⟩

/-- The response to a request that failed. -/
def failed (f : Failure) : Response :=
  match f.outermost? with
  | some (code, text) => json (statusFor code) (Failure.codedJson code text)
  | none => json (statusFor .internal) (Failure.codedJson .internal "internal error")

/-- The response that sends a request on to another place. -/
def moved (method place : String) : Response :=
  if method = get then
    ⟨301, "text/html; charset=utf-8",
      "<a href=\"" ++ pageText place ++ "\">Moved Permanently</a>.\n\n"⟩
  else ⟨307, "", ""⟩

/-- The response to a request that leads nowhere. -/
def missing : Response := ⟨404, "text/plain", "404 page not found"⟩

end Response

/-- What goes well with a rebuild is that it was accepted; all else is done at once. -/
def successStatus : Form → Nat
  | .rescan => 202
  | _ => 200

/-- The circumstances of a web request. -/
structure Setting where
  occasion : Occasion
  metrics : Metrics
  /-- How times are written. -/
  renderTime : Timestamp → String

/-- What an endpoint answers. -/
def respond (setting : Setting) (s : Service) (text : String → RawText) :
    Endpoint → Response × Service
  | .health => (.json 200 (.object [("status", .string "ok")]), s)
  | .metrics => (⟨200, "text/plain; version=0.0.4; charset=utf-8",
      Text.join "" (setting.metrics.samples.map fun (name, n) => s!"{name} {n}\n")⟩, s)
  | .service form =>
    match s.serveRaw setting.occasion form text with
    | (.ok reply, s) => (.json (successStatus form) (reply.toJson setting.renderTime), s)
    | (.error f, s) => (.failed f, s)

/-- Answers a web request. -/
def handle (setting : Setting) (s : Service) (method target : String) : Response × Service :=
  let t := Target.ofString target
  match direct method t.path with
  | .endpoint e => respond setting s t.text e
  | .elsewhere path => (.moved method (t.origin ++ path ++ t.rest), s)
  | .nowhere => (.missing, s)

end Ripple.Web
