import HermesA2A.Lib.Text
import HermesA2A.Lib.Url

/-!
# Which URLs may be called

The SSRF checks: `validate_target_url` for the outbound RPC path, `is_safe_url` and
`validate_webhook_endpoint` for webhooks.  The first one takes the host to be the text
of the authority up to the first colon; the second one reads it off the parsed URL, and
asks the resolver for the address unless the host begins with a digit.

The resolver is a parameter.  `gethostbyname` knows IPv4 only, and returns an IPv4
address that it is given as it is.
-/

namespace HermesA2A

open IpAddress

/-! ### Private addresses -/

/-- The value of an IPv4 address. -/
def octets (a b c d : ℕ) : BitVec 32 := BitVec.ofNat 32 (((a * 256 + b) * 256 + c) * 256 + d)

/-- `_PRIVATE_CIDRS` -/
def PRIVATE_CIDRS : List IpNetwork :=
  [ ⟨.v4 (octets 127 0 0 0), 8⟩,
    ⟨.v4 (octets 10 0 0 0), 8⟩,
    ⟨.v4 (octets 172 16 0 0), 12⟩,
    ⟨.v4 (octets 192 168 0 0), 16⟩,
    ⟨.v4 (octets 169 254 0 0), 16⟩,
    ⟨.v6 1, 128⟩,
    ⟨.v6 (0xfc00 <<< 112), 7⟩,
    ⟨.v6 (0xfe80 <<< 112), 10⟩ ]

/-- Is an address in a private range? -/
def isPrivate (ip : IpAddress) : Bool := PRIVATE_CIDRS.any (·.contains ip)

/-- `_is_private_ip` -/
def isPrivateIp (text : List Char) : Bool := (ipAddress text).any isPrivate

/-! ### Targets of the outbound path -/

/-- Why `validate_target_url` raises. -/
inductive UrlRefusal
  | unparsable (e : UrlError)
  | refused (message : String)
  deriving DecidableEq

/-- The schemes that are allowed. -/
def HTTP_SCHEMES : List (List Char) := ["http".toList, "https".toList]

/-- The host as `validate_target_url` reads it: `netloc.split(":")[0]`. -/
def guardedHost (u : SplitUrl) : List Char := partitionBefore ':' u.netloc

/-- `(url or "").strip().rstrip("/")` -/
def trimUrl (url : String) : List Char := (Text.strip url.toList).rdropWhile (· = '/')

/-- `validate_target_url`; the URL is returned trimmed. -/
def validateTargetUrl (D : CharData) (url : String) (allowLoopback : Bool) :
    Except UrlRefusal (List Char) :=
  let url := trimUrl url
  match urlsplit D url with
  | .error e => .error (.unparsable e)
  | .ok parsed =>
      if parsed.scheme ∉ HTTP_SCHEMES ∨ parsed.netloc = [] then
        .error (.refused "A2A URL must be an http(s) URL")
      else
        let host := guardedHost parsed
        if host = "0.0.0.0".toList then
          .error (.refused "A2A URL cannot be the unspecified address")
        else if allowLoopback then .ok url
        else if host ∈ ["localhost".toList, "127.0.0.1".toList, "::1".toList] then
          .error (.refused "A2A URL cannot point to loopback addresses")
        else if isPrivateIp host then
          .error (.refused ("URL resolves to private network (" ++ String.ofList host ++
            "); refusing SSRF delivery"))
        else .ok url

/-! ### Webhooks -/

/-- `socket.gethostbyname`: the address, unless it raises. -/
structure Resolver where
  resolve : List Char → Option (BitVec 32)
  /-- An IPv4 address is returned as it is. -/
  literal : ∀ {text ip}, parseV4 text = some ip → resolve text = some ip

/-- `_METADATA_HOSTS` -/
def METADATA_HOSTS : List (List Char) :=
  ["169.254.169.254".toList, "metadata.google.internal".toList]

/-- The host as `is_safe_url` reads it. -/
def checkedHost (D : CharData) (u : SplitUrl) : List Char :=
  match u.hostname D with
  | some hostname => hostname
  | none =>
      if u.netloc.head? = some '[' then (partitionBefore ']' u.netloc).drop 1
      else if u.netloc.count ':' ≥ 2 then u.netloc
      else partitionBefore ':' u.netloc

/-- The hosts that are refused as they are written. -/
def blockedLiteral (hostname netloc : List Char) : Bool :=
  hostname = "*".toList ∨ Text.strip netloc = "*".toList ∨
  hostname ∈ ["localhost".toList, "0.0.0.0".toList] ∨
  hostname ∈ ["::1".toList, "[::1]".toList] ∨
  hostname ∈ METADATA_HOSTS ∨ "metadata.google.internal".toList.isPrefixOf hostname ∨
  isPrivateIp hostname

/-- Does the resolver's address, if there is one, let the host pass? -/
def resolvesSafely (r : Resolver) (hostname : List Char) : Bool :=
  match r.resolve hostname with
  | none => false
  | some ip => !isPrivateIp (toText ip)

/-- The lookup of `is_safe_url`; a host that begins with a digit passes without. -/
def passesLookup (D : CharData) (r : Resolver) : List Char → Bool
  | [] => true
  | first :: rest => D.isDigit first || resolvesSafely r (first :: rest)

/-- `is_safe_url`; a URL that cannot be parsed raises. -/
def isSafeUrl (D : CharData) (r : Resolver) (url : String) : Except UrlError Bool :=
  if Text.strip url.toList = [] then .ok false
  else
    match urlsplit D url.toList with
    | .error e => .error e
    | .ok parsed =>
        let hostname := checkedHost D parsed
        if D.lower parsed.scheme ∉ HTTP_SCHEMES then .ok false
        else if blockedLiteral hostname parsed.netloc then .ok false
        else .ok (passesLookup D r hostname)

/-- `validate_webhook_endpoint` -/
def validateWebhookEndpoint (D : CharData) (r : Resolver) (endpoint : String) :
    Except UrlError (Bool × String) :=
  if Text.strip endpoint.toList = [] then .ok (false, "Empty endpoint URL")
  else if ¬ "https://".toList.isPrefixOf (D.lower endpoint.toList) then
    .ok (false, "Webhook endpoint must use HTTPS")
  else do
    if ← isSafeUrl D r endpoint then return (true, "")
    else
      return (false, "Webhook endpoint is not allowed: " ++ endpoint ++ " (SSRF protection)")

end HermesA2A
