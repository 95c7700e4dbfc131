/-
# The header fields of a request to Copilot

A request carries two groups of fields: what the gateway says about itself, with the
bearer token of the account, and what is left of the fields the client sent. The
gateway's group goes through a `Headers` object, which keeps a list of fields whose
names compare without case and hands them out sorted by name.

Names of header fields are ASCII, so lower case is ASCII lower case.
-/

import GhcGateway.Serialization.Text
import Mathlib.Data.List.Dedup
import Mathlib.Data.List.Sort

namespace GhcGateway.Copilot

variable {name : JsString}

structure OrderedHeaderField where
  name : JsString
  value : JsString
  deriving DecidableEq

/-- `toLowerCase` of a header name. -/
def toLowerCase (name : JsString) : JsString :=
  name.map fun unit => if 0x41 ≤ unit && unit ≤ 0x5A then unit + 0x20 else unit

def OrderedHeaderField.lowerName (field : OrderedHeaderField) : JsString :=
  toLowerCase field.name

/-! ## Headers -/

/-- `Headers`: the fields in the order in which their names were first given. -/
abbrev Headers := List OrderedHeaderField

namespace Headers

/-- The white space that is cut off both ends of a value. -/
def isHttpWhiteSpace (unit : UInt16) : Bool :=
  unit = 0x09 || unit = 0x0A || unit = 0x0D || unit = 0x20

def normalizeValue (value : JsString) : JsString :=
  ((value.dropWhile isHttpWhiteSpace).reverse.dropWhile isHttpWhiteSpace).reverse

def append (headers : Headers) (name value : JsString) : Headers :=
  headers ++ [⟨name, normalizeValue value⟩]

def delete (headers : Headers) (name : JsString) : Headers :=
  headers.filter fun field => field.lowerName ≠ toLowerCase name

/-- `set`: the first field of the name takes the value and the others go. -/
def set (headers : Headers) (name value : JsString) : Headers :=
  match headers with
  | [] => [⟨name, normalizeValue value⟩]
  | field :: rest =>
    if field.lowerName = toLowerCase name then
      ⟨field.name, normalizeValue value⟩ :: delete rest name
    else field :: set rest name value

def valuesOf (headers : Headers) (lowerName : JsString) : List JsString :=
  (headers.filter fun field => field.lowerName = lowerName).map OrderedHeaderField.value

/-- The names in lower case, each once, in the order of their code units. -/
def names (headers : Headers) : List JsString :=
  ((headers.map OrderedHeaderField.lowerName).dedup).insertionSort fun left right => left ≤ right

/-- What iteration yields for a name: the values joined, except for cookies that are
set, which are kept apart. -/
def entriesOf (headers : Headers) (lowerName : JsString) : List OrderedHeaderField :=
  if lowerName = js "set-cookie" then
    (headers.valuesOf lowerName).map fun value => ⟨lowerName, value⟩
  else [⟨lowerName, (js ", ").intercalate (headers.valuesOf lowerName)⟩]

/-- Iterating over the headers, which `forEach` and the spread do. -/
def entries (headers : Headers) : List OrderedHeaderField :=
  headers.names.flatMap headers.entriesOf

end Headers

/-! ## The gateway's own fields -/

def copilotHeaders : List OrderedHeaderField :=
  [⟨js "copilot-integration-id", js "vscode-chat"⟩,
    ⟨js "editor-version", js "vscode/1.110.1"⟩,
    ⟨js "editor-plugin-version", js "copilot-chat/0.38.2"⟩,
    ⟨js "user-agent", js "GitHubCopilotChat/0.38.2"⟩,
    ⟨js "x-github-api-version", js "2025-10-01"⟩]

def stripOnCrossHost : List JsString :=
  ["authorization", "cookie", "cookie2", "proxy-authorization", "www-authenticate"].map js

/-- Whether a field may go to another host. -/
def OrderedHeaderField.isKept (field : OrderedHeaderField) : Bool :=
  !stripOnCrossHost.contains field.lowerName

def gatewayOwnedHeader (name : JsString) : Bool :=
  toLowerCase name = js "authorization" ||
    copilotHeaders.any fun field => field.name = toLowerCase name

/-- `new Headers({ ...copilotHeaders(), authorization })`. -/
def bearerHeaders (token : JsString) : Headers :=
  copilotHeaders ++ [⟨js "authorization", Headers.normalizeValue (js "Bearer " ++ token)⟩]

/-! ## The client's fields -/

def blockedClientHeaders : List JsString :=
  ["accept", "accept-encoding", "anthropic-api-key", "anthropic-beta", "anthropic-version",
    "api-key", "api-token", "api_key", "apikey", "access-token", "auth-token", "authorization",
    "authentication-info", "b3", "baggage", "cf-connecting-ip", "connection", "content-range",
    "content-digest", "content-encoding", "content-length", "content-md5", "content-sha256",
    "content-type", "copilot-user-intent", "copilot-integration-id", "copilot-vision-request",
    "cookie", "cookie2", "cf-access-client-id", "cf-access-client-secret", "client-secret",
    "correlationid", "correlation-id", "digest", "dnt", "editor-plugin-version",
    "editor-version", "expect", "access-control-request-headers",
    "access-control-request-method", "forwarded", "from", "github-token", "host",
    "http2-settings", "x-http-method", "x-http-method-override", "x-method-override",
    "keep-alive", "grpc-trace-bin", "newrelic", "oauth-token", "openai-api-key",
    "openai-intent", "openai-organization", "openai-project", "ocp-apim-subscription-key",
    "origin", "proxy-authenticate", "proxy-authentication-info", "proxy-authorization",
    "proxy-connection", "private-token", "referer", "repr-digest", "request-id", "requestid",
    "sec-gpc", "signature", "signature-input", "security-token", "set-cookie", "sentry-trace",
    "subscription-key", "te", "traceparent", "trace-id", "tracestate", "trailer",
    "transfer-encoding", "true-client-ip", "upgrade", "upgrade-insecure-requests",
    "user-agent", "via", "vision-request", "x-amzn-trace-id", "x-amz-content-sha256",
    "x-amz-decoded-content-length", "x-amz-security-token", "x-amz-trailer", "x-api-key",
    "x-api_key", "x-apikey", "x-access-token", "x-auth-token", "x-copilot-api-version",
    "x-copilot-client-version", "x-copilot-integration-id", "x-cloud-trace-context",
    "x-client-trace-id", "x-client-ip", "x-client-cert", "x-correlation-id",
    "x-correlationid", "x-github-api-version", "x-github-token", "x-initiator",
    "x-openai-api-key", "x-oauth-token", "x-real-ip", "x-remote-user", "x-rewrite-url",
    "x-request-id", "x-requestid", "x-span-id", "x-trace-id",
    "x-vscode-user-agent-library-version", "x-webhook-signature", "www-authenticate"].map js

def headerNameTokens (name : JsString) : List JsString :=
  (name.splitOnP fun unit => unit = 0x2D || unit = 0x5F).filter fun token => token ≠ []

def containsTokenPair (tokens : List JsString) (left right : JsString) : Bool :=
  (tokens.zip tokens.tail).any fun pair => pair.1 = left && pair.2 = right

/-- A word made of one of the fronts and one of the backs. -/
def isCompound (fronts backs : List String) (token : JsString) : Bool :=
  fronts.any fun front => backs.any fun back => token = js front ++ js back

/-- The words that name a credential by themselves. -/
def credentialWords : List JsString :=
  ["apikey", "assertion", "auth", "authentication", "authorization", "cert", "certificate",
    "cookie", "csrf", "bearer", "credential", "credentials", "jwt", "key", "oauth", "passphrase",
    "passwd", "password", "pwd", "saml", "secret", "secrets", "token", "xsrf"].map js

def credentialHeaderName (name : JsString) : Bool :=
  name = js "dpop" || (headerNameTokens name).any fun token =>
    credentialWords.contains token
      || isCompound ["access", "api", "auth", "bearer", "client", "credential", "id", "oauth",
        "private", "refresh", "security", "session"] ["token"] token
      || isCompound ["bearer", "jwt", "oauth", "refresh", "session", "id"] ["token"] token
      || isCompound ["client", "db"] ["passphrase", "passwd", "password", "pwd", "secret", "token"]
        token
      || isCompound ["private", "security"] ["key", "secret", "token"] token
      || isCompound ["access", "api", "auth", "client", "credential", "id", "oauth", "private",
        "refresh", "security", "session", ""] ["key"] token

def isDigit (unit : UInt16) : Bool := 0x30 ≤ unit && unit ≤ 0x39

def integrityHeaderName (name : JsString) : Bool :=
  (headerNameTokens name).any fun token =>
    (["checksum", "digest", "hash", "hmac", "md5", "signature"].map js).contains token
      || ((js "crc").isPrefixOf token && (token.drop 3).all isDigit)
      || ((js "sha").isPrefixOf token && token.drop 3 ≠ [] && (token.drop 3).all isDigit)

def identityHeaderName (name : JsString) : Bool :=
  let tokens := headerNameTokens name
  tokens.any (["account", "accountid", "clientid", "consumer", "conversation", "device", "email",
      "identity", "oidc", "principal", "session", "subject", "tenant", "tenantid", "thread",
      "user", "userid", "username"].map js).contains
    || containsTokenPair tokens (js "client") (js "ip")
    || containsTokenPair tokens (js "client") (js "id")
    || containsTokenPair tokens (js "remote") (js "user")
    || containsTokenPair tokens (js "rewrite") (js "url")
    || tokens.contains (js "original")
    || (tokens.contains (js "ssl") && tokens.contains (js "client"))

def sensitiveName (name : JsString) : Bool :=
  if name = js "idempotency-key" then false
  else credentialHeaderName name || integrityHeaderName name || identityHeaderName name

/-- The prefixes of names that are not passed on. -/
def blockedPrefixes : List JsString :=
  [":", "sec-", "x-b3-", "x-datadog-", "x-envoy-", "x-forwarded-", "x-ghcg-",
    "x-original-forwarded-", "x-opentelemetry-", "x-ot-", "x-stainless-"].map js

/-- The suffixes of names that are not passed on. -/
def blockedSuffixes : List JsString :=
  ["-access-token", "-api-key", "-api-token", "-auth-token", "-authorization", "-baggage",
    "-client-secret", "-correlationid", "-github-token", "-oauth-token", "-private-token",
    "-password", "-secret", "-session-id", "_api_key", "_api_token", "_authorization",
    "_password", "_secret", "_session_id", "-request-id", "-correlation-id", "-requestid",
    "-span-id", "-subscription-key", "-token", "-trace-id", "_token", "traceparent",
    "tracestate"].map js

/-- `blockedClientHeader`, whose checks are all alternatives. -/
def blockedClientHeader (name : JsString) : Bool :=
  blockedPrefixes.any (fun front => front.isPrefixOf name)
    || blockedClientHeaders.contains name
    || sensitiveName name
    || blockedSuffixes.any (fun back => back.isSuffixOf name)
    || (["conversation-id", "fastly-client-ip", "password", "session", "x-session", "session-id",
      "session_id", "thread-id", "token", "x-session-id", "uber-trace-id",
      "x-ot-span-context"].map js).contains name

def connectionTokenHeaders (fields : List OrderedHeaderField) : List JsString :=
  ((fields.filter fun field => field.lowerName = js "connection").flatMap fun field =>
    (field.value.splitOnP fun unit => unit = 0x2C).map fun token =>
      toLowerCase (JsString.trim token)).filter fun name => name ≠ []

/-! ## The fields of a request -/

structure OutboundHeaderFields where
  gateway : List OrderedHeaderField
  client : List OrderedHeaderField

def outboundHeaderFields (token : JsString) (extra : Headers)
    (clientHeaderFields : List OrderedHeaderField) : OutboundHeaderFields where
  gateway :=
    (extra.entries.foldl (fun headers field =>
      if gatewayOwnedHeader field.name then headers
      else Headers.set headers field.name field.value) (bearerHeaders token)).entries
  client := clientHeaderFields.filter fun field =>
    !blockedClientHeader field.lowerName &&
      !(connectionTokenHeaders clientHeaderFields).contains field.lowerName

/-- `flatHeaders`: the fields as they are written, one by one. -/
def flatHeaders (headers : OutboundHeaderFields) : List OrderedHeaderField :=
  headers.gateway ++ headers.client

/-- `fetchHeaders`: the fields as a `Headers` object hands them out. -/
def fetchHeaders (headers : OutboundHeaderFields) : Headers :=
  (headers.gateway ++ headers.client).foldl
    (fun result field => Headers.append result field.name field.value) []

/-! ## Lower case -/

theorem toLowerCase_toLowerCase (name : JsString) :
    toLowerCase (toLowerCase name) = toLowerCase name := by
  rw [toLowerCase, toLowerCase, List.map_map]
  refine List.map_congr_left fun unit _ => ?_
  by_cases upper : (0x41 ≤ unit && unit ≤ 0x5A) = true
  · simp only [Function.comp_apply, if_pos upper]
    rw [if_neg]
    simp only [Bool.and_eq_true, decide_eq_true_eq, UInt16.le_iff_toNat_le] at upper ⊢
    have sum : (unit + 0x20).toNat = unit.toNat + 0x20 := by
      rw [UInt16.toNat_add]
      have bound : unit.toNat ≤ 0x5A := upper.2
      show (unit.toNat + 0x20) % 65536 = _
      omega
    rw [sum]
    rintro ⟨-, high⟩
    have low : 0x41 ≤ unit.toNat := upper.1
    have absurd : unit.toNat + 0x20 ≤ 0x5A := high
    omega
  · simp only [Function.comp_apply, if_neg upper]

/-! ## Fields that agree but for secrets -/

/-- Two fields of a name whose values differ only where the field is not kept. -/
def SameButSecret (left right : OrderedHeaderField) : Prop :=
  left.name = right.name ∧ (left.isKept = true → left.value = right.value)

namespace SameButSecret

variable {left right : OrderedHeaderField} {first second : Headers}

theorem refl (field : OrderedHeaderField) : SameButSecret field field := ⟨rfl, fun _ => rfl⟩

theorem lowerName (same : SameButSecret left right) : left.lowerName = right.lowerName :=
  congrArg toLowerCase same.1

theorem isKept (same : SameButSecret left right) : left.isKept = right.isKept := by
  rw [OrderedHeaderField.isKept, same.lowerName]
  rfl

section

variable (same : List.Forall₂ SameButSecret first second)

include same

/-- What is kept of such fields is the same. -/
theorem filter_isKept :
    first.filter OrderedHeaderField.isKept = second.filter OrderedHeaderField.isKept := by
  induction same with
  | nil => rfl
  | @cons left right first second head _ ih =>
    rw [List.filter_cons, List.filter_cons, ← head.isKept, ih]
    by_cases kept : left.isKept = true
    · rw [if_pos kept, if_pos kept]
      obtain ⟨name, value⟩ := left
      obtain ⟨_, _⟩ := right
      cases head.1
      cases head.2 kept
      rfl
    · rw [if_neg kept, if_neg kept]

theorem delete (name : JsString) :
    List.Forall₂ SameButSecret (Headers.delete first name) (Headers.delete second name) := by
  induction same with
  | nil => exact .nil
  | @cons left right first second head _ ih =>
    rw [Headers.delete, Headers.delete, List.filter_cons, List.filter_cons, head.lowerName]
    split
    · exact .cons head ih
    · exact ih

theorem set (name value : JsString) :
    List.Forall₂ SameButSecret (Headers.set first name value) (Headers.set second name value) := by
  induction same with
  | nil => exact .cons (refl _) .nil
  | @cons left right first second head rest ih =>
    rw [Headers.set, Headers.set, head.lowerName]
    split
    · exact .cons ⟨head.1, fun _ => rfl⟩ (delete rest name)
    · exact .cons head ih

theorem names : first.names = second.names := by
  have lower : first.map OrderedHeaderField.lowerName =
      second.map OrderedHeaderField.lowerName := by
    induction same with
    | nil => rfl
    | cons head _ ih => rw [List.map_cons, List.map_cons, head.lowerName, ih]
  rw [Headers.names, lower]
  rfl

theorem valuesOf (kept : stripOnCrossHost.contains name = false) :
    first.valuesOf name = second.valuesOf name := by
  induction same with
  | nil => rfl
  | @cons left right first second head _ ih =>
    rw [Headers.valuesOf, Headers.valuesOf] at ih ⊢
    rw [List.filter_cons, List.filter_cons, ← head.lowerName]
    by_cases here : left.lowerName = name
    · have isKept : left.isKept = true := by
        rw [OrderedHeaderField.isKept, here, kept]
        rfl
      simp only [here, decide_true, if_true, List.map_cons, head.2 isKept, ih]
    · simp only [here, decide_false, Bool.false_eq_true, if_false, ih]

end

end SameButSecret

/-! ## What iteration yields -/

namespace Headers

variable {headers : Headers} {field : OrderedHeaderField}

theorem mem_names : name ∈ headers.names ↔ ∃ field ∈ headers, field.lowerName = name := by
  rw [names, List.mem_insertionSort, List.mem_dedup, List.mem_map]

theorem name_of_mem_entriesOf (member : field ∈ headers.entriesOf name) : field.name = name := by
  rw [entriesOf] at member
  split at member
  · obtain ⟨value, -, rfl⟩ := List.mem_map.mp member
    rfl
  · rw [List.mem_singleton.mp member]

/-- Iteration yields fields of the names that are there. -/
theorem lowerName_of_mem_entries (member : field ∈ headers.entries) :
    ∃ other ∈ headers, other.lowerName = field.lowerName := by
  obtain ⟨name, isName, yielded⟩ := List.mem_flatMap.mp member
  obtain ⟨other, there, rfl⟩ := mem_names.mp isName
  refine ⟨other, there, ?_⟩
  rw [OrderedHeaderField.lowerName, OrderedHeaderField.lowerName, name_of_mem_entriesOf yielded]
  exact (toLowerCase_toLowerCase _).symm

/-- Iteration yields the same fields to keep for headers that agree but for secrets. -/
theorem entries_filter_isKept {first second : Headers}
    (same : List.Forall₂ SameButSecret first second) :
    first.entries.filter OrderedHeaderField.isKept =
      second.entries.filter OrderedHeaderField.isKept := by
  rw [entries, entries, ← SameButSecret.names same, List.filter_flatMap, List.filter_flatMap]
  refine List.flatMap_congr fun name isName => ?_
  obtain ⟨field, -, rfl⟩ := mem_names.mp isName
  cases secret : stripOnCrossHost.contains field.lowerName with
  | false => rw [entriesOf, entriesOf, SameButSecret.valuesOf same secret]
  | true =>
    have none : ∀ headers : Headers,
        (headers.entriesOf field.lowerName).filter OrderedHeaderField.isKept = [] := by
      intro headers
      rw [List.filter_eq_nil_iff]
      intro other member
      have lower : other.lowerName = field.lowerName := by
        rw [OrderedHeaderField.lowerName, name_of_mem_entriesOf member]
        exact toLowerCase_toLowerCase _
      rw [OrderedHeaderField.isKept, lower, secret]
      exact Bool.false_ne_true
    rw [none, none]

theorem foldl_delete {names : List JsString} (lower : ∀ name ∈ names, toLowerCase name = name)
    (headers : Headers) : names.foldl delete headers =
      headers.filter fun field => !names.contains field.lowerName := by
  induction names generalizing headers with
  | nil => exact (List.filter_eq_self.mpr fun _ _ => rfl).symm
  | cons name names ih =>
    rw [List.foldl_cons, ih fun other member => lower other (List.mem_cons_of_mem _ member),
      delete, lower name List.mem_cons_self, List.filter_filter]
    refine List.filter_congr fun field _ => ?_
    by_cases same : field.lowerName = name
    · simp [same]
    · simp [same]

/-- Deleting what is not kept is keeping the rest. -/
theorem foldl_delete_stripOnCrossHost (headers : Headers) :
    stripOnCrossHost.foldl delete headers = headers.filter OrderedHeaderField.isKept :=
  foldl_delete (by decide) headers

end Headers

/-- The headers with two tokens agree but for secrets. -/
theorem forall₂_bearerHeaders (token other : JsString) :
    List.Forall₂ SameButSecret (bearerHeaders token) (bearerHeaders other) := by
  have secret : stripOnCrossHost.contains (toLowerCase (js "authorization")) = true := by decide
  have common : List.Forall₂ SameButSecret copilotHeaders copilotHeaders :=
    List.forall₂_same.mpr fun field _ => SameButSecret.refl field
  refine List.rel_append common (.cons ⟨rfl, fun kept => ?_⟩ .nil)
  rw [OrderedHeaderField.isKept, OrderedHeaderField.lowerName, secret] at kept
  cases kept

/-- The gateway's fields to keep do not depend on the token, nor on what the client
sent. -/
theorem outboundHeaderFields_filter_isKept (token other : JsString) (extra : Headers)
    (clientFields otherFields : List OrderedHeaderField) :
    (outboundHeaderFields token extra clientFields).gateway.filter OrderedHeaderField.isKept =
      (outboundHeaderFields other extra otherFields).gateway.filter OrderedHeaderField.isKept := by
  apply Headers.entries_filter_isKept
  have start := forall₂_bearerHeaders token other
  generalize bearerHeaders token = first at start ⊢
  generalize bearerHeaders other = second at start ⊢
  induction extra.entries generalizing first second with
  | nil => exact start
  | cons field fields ih =>
    rw [List.foldl_cons, List.foldl_cons]
    apply ih
    split
    · exact start
    · exact SameButSecret.set start _ _

end GhcGateway.Copilot
