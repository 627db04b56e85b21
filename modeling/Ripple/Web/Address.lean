import Ripple.Text.Search

/-!
# Ripple.Web.Address

Addresses to listen at: a host, which may be empty and may stand in brackets, a colon and a port.
-/

namespace Ripple.Web.Address

/-- Why nothing can listen at an address. -/
inductive Problem where
  | missingPort (address : String)
  | tooManyColons (address : String)
  | missingBracket (address : String)
  | strayBracket (bracket : Char) (address : String)
  | invalidPort (port : String)
  | unknownPort (port : String)
  deriving DecidableEq, Repr

/-- A text about an address, which is named unless it is empty. -/
def about (address text : String) : String :=
  if address.isEmpty then text else s!"address {address}: {text}"

/-- The text of a problem. -/
def Problem.text : Problem → String
  | missingPort a => about a "missing port in address"
  | tooManyColons a => about a "too many colons in address"
  | missingBracket a => about a "missing ']' in address"
  | strayBracket c a => about a s!"unexpected '{c}' in address"
  | invalidPort p => about p "invalid port"
  | unknownPort p => s!"lookup tcp/{p}: unknown port"

/-- The text of a problem, with what was tried. -/
def Problem.message (p : Problem) : String := "listen tcp: " ++ p.text

/-- Host and port of an address without brackets around the host. -/
def splitPlain (address : String) : Except Problem (String × String) :=
  let port := Text.afterLast ':' address
  let host := String.ofList (address.toList.take (address.length - port.length - 1))
  if host.toList.contains ':' then .error (.tooManyColons address)
  else if address.toList.contains '[' then .error (.strayBracket '[' address)
  else if address.toList.contains ']' then .error (.strayBracket ']' address)
  else .ok (host, port)

/-- Host and port of an address with brackets around the host; `body` follows the first of them. -/
def splitBracketed (address : String) (body : List Char) : Except Problem (String × String) :=
  if !body.contains ']' then .error (.missingBracket address)
  else
    let host := body.takeWhile (· != ']')
    match (body.dropWhile (· != ']')).drop 1 with
    | ':' :: port =>
      if port.contains ':' then .error (.tooManyColons address)
      else if host.contains '[' || port.contains '[' then .error (.strayBracket '[' address)
      else if port.contains ']' then .error (.strayBracket ']' address)
      else .ok (String.ofList host, String.ofList port)
    | _ => .error (.missingPort address)

/-- Host and port of an address. -/
def split (address : String) : Except Problem (String × String) :=
  if !address.toList.contains ':' then .error (.missingPort address)
  else
    match address.toList with
    | '[' :: body => splitBracketed address body
    | _ => splitPlain address

/-- The services whose names stand for their ports. -/
def knownPorts : List String :=
  ["domain", "ftp", "ftps", "gopher", "http", "https", "imap2", "imap3", "imaps", "pop3", "pop3s",
    "smtp", "submissions", "ssh", "telnet"]

/-- Checks a port: nothing, a number below `2^16` or the name of a service. -/
def checkPort (port : String) : Except Problem Unit :=
  let (negative, digits) := match port.toList with
    | '-' :: rest => (true, rest)
    | '+' :: rest => (false, rest)
    | cs => (false, cs)
  if !digits.all Char.isDigit then
    if knownPorts.contains port then .ok () else .error (.unknownPort port)
  else
    let n := digits.foldl (fun n d => n * 10 + (d.toNat - 48)) 0
    if n = 0 ∨ (n < 65536 ∧ !negative) then .ok () else .error (.invalidPort port)

/-- Checks an address. -/
def check (address : String) : Except Problem Unit := do
  let (_, port) ← split address
  checkPort port

end Ripple.Web.Address
