/-
# Following redirects

Three loops follow redirects: the inference request over `fetch`, the inference
request over the connection pools, and the request for the models. They differ in how
a target is checked, in how two origins are told apart and in how the fields are kept.

What a loop does depends on the answers only, so a run is a function of the list of
answers, a status and a `location` each. The parser of URLs is a parameter, and so is
what the injected `fetch` takes requests for: URLs of the two HTTP schemes without
credentials.
-/

import GhcGateway.Copilot.HeaderFields
import Mathlib.Data.List.Chain

namespace GhcGateway.Copilot

variable {headers : OutboundHeaderFields} {field : OrderedHeaderField} {current next : JsString}

/-! ## URLs -/

/-- `URL`, as far as it is read here. A port that is the default one of the scheme is
never kept. -/
structure Url where
  protocol : JsString
  username : JsString
  password : JsString
  hostname : JsString
  port : JsString
  /-- The origin of a URL that is not of an HTTP scheme. -/
  otherOrigin : JsString
  /-- `toString()`. -/
  href : JsString
  port_http : protocol = js "http:" → port ≠ js "80"
  port_https : protocol = js "https:" → port ≠ js "443"

namespace Url

def isHttp (url : Url) : Bool := url.protocol = js "http:" || url.protocol = js "https:"

def origin (url : Url) : JsString :=
  if url.isHttp then
    url.protocol ++ js "//" ++ url.hostname ++
      (if url.port = [] then [] else js ":" ++ url.port)
  else url.otherOrigin

def effectivePort (url : Url) : JsString :=
  if url.port ≠ [] then url.port
  else if url.protocol = js "https:" then js "443"
  else js "80"

/-- A port that is kept is not the default one. -/
theorem port_ne_default {url : Url} (http : url.isHttp = true) :
    url.port ≠ if url.protocol = js "https:" then js "443" else js "80" := by
  by_cases secure : url.protocol = js "https:"
  · rw [if_pos secure]
    exact url.port_https secure
  · rw [if_neg secure]
    simp only [isHttp, Bool.or_eq_true, decide_eq_true_eq] at http
    exact url.port_http (http.resolve_right secure)

/-- The effective port of an HTTP scheme tells the port. -/
theorem port_eq_of_effectivePort {first second : Url} (http : first.isHttp = true)
    (protocol : first.protocol = second.protocol)
    (same : first.effectivePort = second.effectivePort) : first.port = second.port := by
  have httpSecond : second.isHttp = true := by
    rw [isHttp, ← protocol]
    exact http
  have notDefault := port_ne_default http
  have notDefaultSecond := port_ne_default httpSecond
  rw [effectivePort, effectivePort, protocol] at same
  rw [protocol] at notDefault
  by_cases none : first.port = []
  · by_cases noneSecond : second.port = []
    · rw [none, noneSecond]
    · rw [if_neg (not_not_intro none), if_pos noneSecond] at same
      exact absurd same.symm notDefaultSecond
  · by_cases noneSecond : second.port = []
    · rw [if_pos none, if_neg (not_not_intro noneSecond)] at same
      exact absurd same notDefault
    · rw [if_pos none, if_pos noneSecond] at same
      exact same

end Url

/-- `new URL(input, base)`. What a URL is written as is read as that URL. -/
structure UrlParser where
  parse : JsString → Option JsString → Option Url
  parse_href : ∀ {input base url}, parse input base = some url → parse url.href none = some url

variable (urls : UrlParser)

/-- `canonicalOrigin`, `none` where it throws. -/
def canonicalOrigin (url : JsString) : Option JsString := do
  let parsed ← urls.parse url none
  if (parsed.protocol ≠ js "http:" ∧ parsed.protocol ≠ js "https:")
    ∨ parsed.username ≠ [] ∨ parsed.password ≠ [] then none
  else some parsed.origin

/-- `safeRedirectTarget`, `none` where it throws. -/
def safeRedirectTarget (location current : JsString) : Option JsString := do
  let target ← urls.parse location (some current)
  let _ ← canonicalOrigin urls target.href
  let from_ ← urls.parse current none
  if from_.protocol = js "https:" ∧ target.protocol = js "http:" then none
  else some target.href

/-- Whether two URLs differ in origin. A URL that cannot be read is of no origin. -/
def changesOrigin (fromUrl toUrl : JsString) : Bool :=
  (urls.parse fromUrl none).map Url.origin ≠ (urls.parse toUrl none).map Url.origin

def redirectHeaders (fromUrl toUrl : JsString) (headers : OutboundHeaderFields) :
    OutboundHeaderFields :=
  if changesOrigin urls fromUrl toUrl then
    { gateway := headers.gateway.filter OrderedHeaderField.isKept
      client := [] }
  else headers

/-- Whether two URLs agree in scheme, host and port. -/
def sameHost (fromUrl toUrl : Url) : Bool :=
  fromUrl.protocol = toUrl.protocol && fromUrl.hostname = toUrl.hostname &&
    fromUrl.effectivePort = toUrl.effectivePort

/-- `stripSecretsOnRedirect` of URLs that can be read. -/
def stripSecretsOnRedirect (fromUrl toUrl : JsString) (headers : Headers) : Headers :=
  match urls.parse fromUrl none, urls.parse toUrl none with
  | some fromUrl, some toUrl =>
    if sameHost fromUrl toUrl then headers else stripOnCrossHost.foldl Headers.delete headers
  | _, _ => stripOnCrossHost.foldl Headers.delete headers

/-! ## The loops -/

def maxRedirects : Nat := 10

structure SentRequest where
  url : JsString
  fields : List OrderedHeaderField
  deriving DecidableEq

/-- What a loop reads of an answer. -/
structure RedirectResponse where
  status : Nat
  location : Option JsString
  deriving DecidableEq

/-- How a loop ends: with a response, with a redirect it does not follow, or because a
request is not sent or not answered. -/
inductive RedirectEnd
  | returned (response : RedirectResponse)
  | invalidUpstreamResponse
  | failed
  deriving DecidableEq

/-- What distinguishes a loop: which URLs it sends requests for, the target of a
redirect, and its header fields. -/
structure RedirectLoop (η : Type) where
  sends : JsString → Bool
  refused : RedirectEnd
  target : JsString → JsString → Option JsString
  strip : JsString → JsString → η → η
  fields : η → List OrderedHeaderField

namespace RedirectLoop

variable {η : Type}

/-- The requests a loop sends and how it ends, with a number of redirects left. -/
def follow (loop : RedirectLoop η) (left : Nat) (current : JsString) (headers : η)
    (responses : List RedirectResponse) : List SentRequest × RedirectEnd :=
  if loop.sends current = false then ([], loop.refused)
  else
    let request : SentRequest := ⟨current, loop.fields headers⟩
    match responses with
    | [] => ([request], .failed)
    | response :: responses =>
      if response.status < 300 ∨ 400 ≤ response.status then ([request], .returned response)
      else
        match response.location with
        | none => ([request], .returned response)
        | some location =>
          match left with
          | 0 => ([request], .invalidUpstreamResponse)
          | left + 1 =>
            match loop.target location current with
            | none => ([request], .invalidUpstreamResponse)
            | some next =>
              let (requests, ended) :=
                loop.follow left next (loop.strip current next headers) responses
              (request :: requests, ended)

end RedirectLoop

/-- The loop of `fetchWithRedirects`, given which URLs `fetch` takes requests for. -/
def fetchLoop (fetches : JsString → Bool) : RedirectLoop OutboundHeaderFields where
  sends := fetches
  refused := .failed
  target := safeRedirectTarget urls
  strip := redirectHeaders urls
  fields := fun headers => (fetchHeaders headers).entries

/-- The loop of `undiciWithRedirects`, which asks for a connection of the origin
first. -/
def undiciLoop : RedirectLoop OutboundHeaderFields where
  sends := fun current => (canonicalOrigin urls current).isSome
  refused := .invalidUpstreamResponse
  target := safeRedirectTarget urls
  strip := redirectHeaders urls
  fields := flatHeaders

/-- The loop of `getWithRedirects`. -/
def getLoop : RedirectLoop Headers where
  sends := fun current => (urls.parse current none).any Url.isHttp
  refused := .failed
  target := fun location current => (urls.parse location (some current)).map Url.href
  strip := stripSecretsOnRedirect urls
  fields := Headers.entries

def fetchWithRedirects (fetches : JsString → Bool) (url token : JsString) (extra : Headers)
    (clientHeaderFields : List OrderedHeaderField) (responses : List RedirectResponse) :
    List SentRequest × RedirectEnd :=
  (fetchLoop urls fetches).follow maxRedirects url
    (outboundHeaderFields token extra clientHeaderFields) responses

def undiciWithRedirects (url token : JsString) (extra : Headers)
    (clientHeaderFields : List OrderedHeaderField) (responses : List RedirectResponse) :
    List SentRequest × RedirectEnd :=
  (undiciLoop urls).follow maxRedirects url (outboundHeaderFields token extra clientHeaderFields)
    responses

def getWithRedirects (url token : JsString) (responses : List RedirectResponse) :
    List SentRequest × RedirectEnd :=
  (getLoop urls).follow maxRedirects url
    (bearerHeaders token ++ [⟨js "content-type", js "application/json"⟩]) responses

/-! ## What holds of every loop -/

/-- The requests that are sent after the first hop that changes origin. -/
def afterCrossing : List SentRequest → List SentRequest
  | first :: second :: requests =>
    if changesOrigin urls first.url second.url then second :: requests
    else afterCrossing (second :: requests)
  | _ => []

/-- No field tells who the user is. -/
def WithoutSecrets (fields : List OrderedHeaderField) : Prop :=
  ∀ field ∈ fields, field.lowerName ≠ js "authorization" ∧ field.lowerName ≠ js "cookie"

theorem withoutSecrets_of_isKept {fields : List OrderedHeaderField}
    (kept : ∀ field ∈ fields, field.isKept = true) : WithoutSecrets fields := by
  intro field member
  have isKept := kept field member
  rw [OrderedHeaderField.isKept] at isKept
  constructor
  · intro secret
    rw [secret] at isKept
    exact absurd isKept (by decide)
  · intro secret
    rw [secret] at isKept
    exact absurd isKept (by decide)

namespace RedirectLoop

variable {η : Type} {loop : RedirectLoop η}

/-- A loop sends nothing, or a request for the current URL alone, or that request and
then those for the target of a redirect. Which of these it does depends on the URL and
the answers. -/
theorem follow_cases (loop : RedirectLoop η) (left : Nat) (current : JsString)
    (responses : List RedirectResponse) :
    (∀ headers, (loop.follow left current headers responses).1 = []) ∨
      loop.sends current = true ∧
        ((∀ headers, (loop.follow left current headers responses).1 =
          [⟨current, loop.fields headers⟩]) ∨
        ∃ rest next others location, left = rest + 1 ∧ loop.target location current = some next ∧
          ∀ headers, (loop.follow left current headers responses).1 =
            ⟨current, loop.fields headers⟩ ::
              (loop.follow rest next (loop.strip current next headers) others).1) := by
  cases sends : loop.sends current with
  | false =>
    refine .inl fun headers => ?_
    unfold follow
    rw [if_pos sends]
  | true =>
    refine .inr ⟨rfl, ?_⟩
    have sent : ¬ loop.sends current = false := by simp [sends]
    cases responses with
    | nil =>
      refine .inl fun headers => ?_
      unfold follow
      rw [if_neg sent]
    | cons response responses =>
      by_cases final : response.status < 300 ∨ 400 ≤ response.status
      · refine .inl fun headers => ?_
        unfold follow
        rw [if_neg sent]
        simp only [if_pos final]
      cases located : response.location with
      | none =>
        refine .inl fun headers => ?_
        unfold follow
        rw [if_neg sent]
        simp only [if_neg final, located]
      | some location =>
        cases left with
        | zero =>
          refine .inl fun headers => ?_
          unfold follow
          rw [if_neg sent]
          simp only [if_neg final, located]
        | succ left =>
          cases target : loop.target location current with
          | none =>
            refine .inl fun headers => ?_
            unfold follow
            rw [if_neg sent]
            simp only [if_neg final, located, target]
          | some next =>
            refine .inr ⟨left, next, responses, location, rfl, target, fun headers => ?_⟩
            conv => enter [1]; unfold follow
            rw [if_neg sent]
            simp only [if_neg final, located, target]

/-- The induction over the hops of a loop, for what can be said of the requests as they
depend on the headers. -/
theorem follow_induction {motive : Nat → JsString → (η → List SentRequest) → Prop}
    (nothing : ∀ left current, motive left current fun _ => [])
    (last : ∀ left current, loop.sends current = true →
      motive left current fun headers => [⟨current, loop.fields headers⟩])
    (hop : ∀ left current next location requests, loop.sends current = true →
      loop.target location current = some next → motive left next requests →
      motive (left + 1) current fun headers =>
        ⟨current, loop.fields headers⟩ :: requests (loop.strip current next headers))
    (left : Nat) (current : JsString) (responses : List RedirectResponse) :
    motive left current fun headers => (loop.follow left current headers responses).1 := by
  induction left generalizing current responses with
  | zero =>
    obtain none | ⟨sends, single | ⟨rest, next, others, location, absurd, -⟩⟩ :=
      loop.follow_cases 0 current responses
    · rw [funext none]
      exact nothing 0 current
    · rw [funext single]
      exact last 0 current sends
    · cases absurd
  | succ left ih =>
    obtain none | ⟨sends, single | ⟨rest, next, others, location, eq, target, goes⟩⟩ :=
      loop.follow_cases (left + 1) current responses
    · rw [funext none]
      exact nothing _ current
    · rw [funext single]
      exact last _ current sends
    · cases eq
      rw [funext goes]
      exact hop left current next location _ sends target (ih next others)

/-- A loop sends at most one request more than it follows redirects. -/
theorem length_follow_le (left : Nat) (current : JsString) (responses : List RedirectResponse)
    (headers : η) : (loop.follow left current headers responses).1.length ≤ left + 1 := by
  revert headers
  apply follow_induction (motive := fun left _ requests =>
    ∀ headers, (requests headers).length ≤ left + 1)
  · intro left current headers
    exact Nat.zero_le _
  · intro left current sends headers
    exact Nat.le_add_left _ _
  · intro left current next location requests sends target ih headers
    exact Nat.succ_le_succ (ih _)

/-- What a loop sends begins with a request for the current URL. -/
theorem follow_begins (left : Nat) (current : JsString) (responses : List RedirectResponse) :
    (∀ headers, (loop.follow left current headers responses).1 = []) ∨
      loop.sends current = true ∧ ∀ headers, ∃ others,
        (loop.follow left current headers responses).1 =
          ⟨current, loop.fields headers⟩ :: others := by
  obtain none | ⟨sends, single | ⟨rest, next, others, location, -, -, goes⟩⟩ :=
    loop.follow_cases left current responses
  · exact .inl none
  · exact .inr ⟨sends, fun headers => ⟨[], single headers⟩⟩
  · exact .inr ⟨sends, fun headers => ⟨_, goes headers⟩⟩

/-- The URLs depend on what is sent and on the targets only. -/
theorem map_url_follow {ζ : Type} {other : RedirectLoop ζ} (sends : loop.sends = other.sends)
    (target : loop.target = other.target) (left : Nat) (current : JsString)
    (responses : List RedirectResponse) (headers : η) (otherHeaders : ζ) :
    (loop.follow left current headers responses).1.map SentRequest.url =
      (other.follow left current otherHeaders responses).1.map SentRequest.url := by
  induction left generalizing current responses headers otherHeaders with
  | zero =>
    unfold follow
    rw [sends]
    split
    · rfl
    cases responses with
    | nil => rfl
    | cons response responses =>
      simp only
      split
      · rfl
      cases response.location with
      | none => rfl
      | some location => rfl
  | succ left ih =>
    unfold follow
    rw [sends]
    split
    · rfl
    cases responses with
    | nil => rfl
    | cons response responses =>
      simp only [target]
      split
      · rfl
      cases response.location with
      | none => rfl
      | some location =>
        cases found : other.target location current with
        | none => simp only [found, List.map_cons, List.map_nil]
        | some next =>
          simp only [found, List.map_cons]
          exact congrArg (current :: ·) (ih next responses _ _)

/-! ## Secrets -/

/-- How a loop treats headers: `same` holds of headers that agree but for secrets, and
`clean` of headers without them. -/
structure Guards (loop : RedirectLoop η) (same : η → η → Prop) (clean : η → Prop) : Prop where
  strip_same : ∀ {current next first second}, same first second →
    same (loop.strip current next first) (loop.strip current next second)
  strip_crossing : ∀ {current next first second}, loop.sends current = true →
    loop.sends next = true → changesOrigin urls current next = true → same first second →
    loop.strip current next first = loop.strip current next second ∧
      clean (loop.strip current next first)
  strip_clean : ∀ {current next headers}, clean headers → clean (loop.strip current next headers)
  fields_clean : ∀ {headers}, clean headers → WithoutSecrets (loop.fields headers)

variable {same : η → η → Prop} {clean : η → Prop}

/-- Headers without secrets stay so. -/
theorem withoutSecrets_follow (guards : loop.Guards urls same clean) (left : Nat)
    (current : JsString) (responses : List RedirectResponse) {headers : η}
    (isClean : clean headers) :
    ∀ request ∈ (loop.follow left current headers responses).1, WithoutSecrets request.fields := by
  revert headers
  apply follow_induction (motive := fun _ _ requests =>
    ∀ {headers}, clean headers → ∀ request ∈ requests headers, WithoutSecrets request.fields)
  · intro left current headers isClean request member
    cases member
  · intro left current sends headers isClean request member
    rw [List.mem_singleton.mp member]
    exact guards.fields_clean isClean
  · intro left current next location requests sends target ih headers isClean request member
    rcases List.mem_cons.mp member with rfl | member
    · exact guards.fields_clean isClean
    · exact ih (guards.strip_clean isClean) request member

/-- After the first hop that changes origin, two runs whose headers agree but for
secrets send the same requests, and none with a secret. -/
theorem afterCrossing_follow (guards : loop.Guards urls same clean) (left : Nat)
    (current : JsString) (responses : List RedirectResponse) {first second : η}
    (agree : same first second) :
    afterCrossing urls (loop.follow left current first responses).1 =
        afterCrossing urls (loop.follow left current second responses).1 ∧
      ∀ request ∈ afterCrossing urls (loop.follow left current first responses).1,
        WithoutSecrets request.fields := by
  induction left generalizing current responses first second with
  | zero =>
    obtain none | ⟨-, single | ⟨rest, next, others, location, absurd, -⟩⟩ :=
      loop.follow_cases 0 current responses
    · rw [none, none]
      exact ⟨rfl, fun request member => by cases member⟩
    · rw [single, single]
      exact ⟨rfl, fun request member => by cases member⟩
    · cases absurd
  | succ left ih =>
    obtain none | ⟨sends, single | ⟨rest, next, others, location, eq, target, goes⟩⟩ :=
      loop.follow_cases (left + 1) current responses
    · rw [none, none]
      exact ⟨rfl, fun request member => by cases member⟩
    · rw [single, single]
      exact ⟨rfl, fun request member => by cases member⟩
    · cases eq
      rw [goes, goes]
      have agreeNext : same (loop.strip current next first) (loop.strip current next second) :=
        guards.strip_same agree
      have rest := ih next others agreeNext
      obtain none | ⟨sendsNext, begins⟩ := @follow_begins _ loop left next others
      · rw [none, none]
        exact ⟨rfl, fun request member => by cases member⟩
      · by_cases crosses : changesOrigin urls current next = true
        · -- from here on the two runs carry the same headers
          obtain ⟨merged, isClean⟩ := guards.strip_crossing sends sendsNext crosses agree
          have cleanRest := withoutSecrets_follow urls guards left next others isClean
          obtain ⟨tail, head⟩ := begins (loop.strip current next first)
          rw [← merged]
          rw [head] at cleanRest ⊢
          simp only [afterCrossing, if_pos crosses]
          exact ⟨trivial, cleanRest⟩
        · obtain ⟨firstTail, firstHead⟩ := begins (loop.strip current next first)
          obtain ⟨secondTail, secondHead⟩ := begins (loop.strip current next second)
          rw [firstHead, secondHead] at rest ⊢
          simp only [afterCrossing, if_neg crosses]
          exact rest

end RedirectLoop

/-! ## The three loops -/

/-- Headers of an inference request that agree but for secrets and the client's
fields. -/
def SameGateway (first second : OutboundHeaderFields) : Prop :=
  first.gateway.filter OrderedHeaderField.isKept = second.gateway.filter OrderedHeaderField.isKept

/-- Headers of an inference request without secrets and without the client's fields. -/
def CleanGateway (headers : OutboundHeaderFields) : Prop :=
  headers.client = [] ∧ ∀ field ∈ headers.gateway, field.isKept = true

theorem cleanGateway_redirectHeaders (crosses : changesOrigin urls current next = true) :
    CleanGateway (redirectHeaders urls current next headers) := by
  rw [redirectHeaders, if_pos crosses]
  exact ⟨rfl, fun field member => (List.mem_filter.mp member).2⟩

/-- Both inference loops guard their headers alike. -/
theorem guards_of_redirectHeaders {loop : RedirectLoop OutboundHeaderFields}
    (strip : loop.strip = redirectHeaders urls)
    (fields : ∀ headers, CleanGateway headers → WithoutSecrets (loop.fields headers)) :
    loop.Guards urls SameGateway CleanGateway where
  strip_same := by
    intro current next first second agree
    rw [strip, redirectHeaders, redirectHeaders]
    split
    · exact congrArg (List.filter OrderedHeaderField.isKept) agree
    · exact agree
  strip_crossing := by
    intro current next first second _ _ crosses agree
    rw [strip]
    refine ⟨?_, cleanGateway_redirectHeaders urls crosses⟩
    rw [redirectHeaders, redirectHeaders, if_pos crosses, if_pos crosses, agree]
  strip_clean := by
    intro current next headers isClean
    rw [strip]
    by_cases crosses : changesOrigin urls current next = true
    · exact cleanGateway_redirectHeaders urls crosses
    · rw [redirectHeaders, if_neg crosses]
      exact isClean
  fields_clean := fun isClean => fields _ isClean

theorem guards_undiciLoop : (undiciLoop urls).Guards urls SameGateway CleanGateway := by
  apply guards_of_redirectHeaders urls rfl
  rintro headers ⟨noClient, kept⟩
  apply withoutSecrets_of_isKept
  show ∀ field ∈ headers.gateway ++ headers.client, _
  rw [noClient, List.append_nil]
  exact kept

/-- A `Headers` object of kept fields hands out kept fields. -/
theorem isKept_of_mem_entries {headers : Headers} (kept : ∀ field ∈ headers, field.isKept = true)
    (member : field ∈ headers.entries) : field.isKept = true := by
  obtain ⟨other, there, lower⟩ := Headers.lowerName_of_mem_entries member
  have isKept := kept other there
  rw [OrderedHeaderField.isKept, lower] at isKept
  exact isKept

theorem mem_fetchHeaders (member : field ∈ fetchHeaders headers) :
    ∃ other ∈ headers.gateway ++ headers.client, field.name = other.name := by
  have appended : ∀ (fields : List OrderedHeaderField) (result : Headers),
      fields.foldl (fun result field => Headers.append result field.name field.value) result =
        result ++ fields.map fun field => ⟨field.name, Headers.normalizeValue field.value⟩ := by
    intro fields
    induction fields with
    | nil => exact fun result => (List.append_nil _).symm
    | cons field fields ih =>
      intro result
      rw [List.foldl_cons, ih, Headers.append, List.append_assoc]
      rfl
  rw [fetchHeaders, appended, List.nil_append] at member
  obtain ⟨other, there, rfl⟩ := List.mem_map.mp member
  exact ⟨other, there, rfl⟩

theorem guards_fetchLoop (fetches : JsString → Bool) :
    (fetchLoop urls fetches).Guards urls SameGateway CleanGateway := by
  apply guards_of_redirectHeaders urls rfl
  rintro headers ⟨noClient, kept⟩
  apply withoutSecrets_of_isKept
  intro field member
  refine isKept_of_mem_entries (fun other there => ?_) member
  obtain ⟨original, isOriginal, name⟩ := mem_fetchHeaders there
  rw [noClient, List.append_nil] at isOriginal
  have isKept := kept original isOriginal
  rw [OrderedHeaderField.isKept, OrderedHeaderField.lowerName, ← name] at isKept
  exact isKept

/-- On URLs of the HTTP schemes the two tests for the same origin agree. -/
theorem origin_eq_of_sameHost {fromUrl toUrl : Url} (http : fromUrl.isHttp = true)
    (same : sameHost fromUrl toUrl = true) : fromUrl.origin = toUrl.origin := by
  simp only [sameHost, Bool.and_eq_true, decide_eq_true_eq] at same
  obtain ⟨⟨protocol, hostname⟩, port⟩ := same
  have httpTo : toUrl.isHttp = true := by
    rw [Url.isHttp, ← protocol]
    exact http
  have samePort := Url.port_eq_of_effectivePort http protocol port
  rw [Url.origin, Url.origin, if_pos http, if_pos httpTo, protocol, hostname, samePort]

/-- Headers of a request for the models that agree but for secrets. -/
def SameKept (first second : Headers) : Prop :=
  first.filter OrderedHeaderField.isKept = second.filter OrderedHeaderField.isKept

theorem stripSecretsOnRedirect_cases (current next : JsString) :
    (∀ headers, stripSecretsOnRedirect urls current next headers = headers) ∨
      ∀ headers, stripSecretsOnRedirect urls current next headers =
        headers.filter OrderedHeaderField.isKept := by
  unfold stripSecretsOnRedirect
  split
  · split
    · exact .inl fun _ => rfl
    · exact .inr Headers.foldl_delete_stripOnCrossHost
  · exact .inr Headers.foldl_delete_stripOnCrossHost

theorem guards_getLoop : (getLoop urls).Guards urls SameKept
    fun headers => ∀ field ∈ headers, field.isKept = true where
  strip_same := by
    intro current next first second agree
    show SameKept (stripSecretsOnRedirect urls current next first)
      (stripSecretsOnRedirect urls current next second)
    obtain stays | filters := stripSecretsOnRedirect_cases urls current next
    · rw [stays, stays]
      exact agree
    · rw [filters, filters]
      exact congrArg (List.filter OrderedHeaderField.isKept) agree
  strip_crossing := by
    intro current next first second sends sendsNext crosses agree
    have filters : ∀ headers, (getLoop urls).strip current next headers =
        headers.filter OrderedHeaderField.isKept := by
      obtain ⟨fromUrl, parsed, http⟩ := (Option.any_eq_true _ _).mp sends
      obtain ⟨toUrl, parsedNext, -⟩ := (Option.any_eq_true _ _).mp sendsNext
      have apart : ¬ sameHost fromUrl toUrl = true := by
        intro same
        rw [changesOrigin, parsed, parsedNext] at crosses
        simp [origin_eq_of_sameHost http same] at crosses
      intro headers
      show stripSecretsOnRedirect urls current next headers = _
      rw [stripSecretsOnRedirect, parsed, parsedNext]
      simp only [if_neg apart]
      exact Headers.foldl_delete_stripOnCrossHost headers
    rw [filters, filters]
    exact ⟨agree, fun field member => (List.mem_filter.mp member).2⟩
  strip_clean := by
    intro current next headers kept
    show ∀ field ∈ stripSecretsOnRedirect urls current next headers, _
    obtain stays | filters := stripSecretsOnRedirect_cases urls current next
    · rw [stays]
      exact kept
    · rw [filters]
      exact fun field member => (List.mem_filter.mp member).2
  fields_clean := by
    intro headers kept
    exact withoutSecrets_of_isKept fun field member => isKept_of_mem_entries kept member

/-! ## Downgrades -/

/-- A request over TLS and, behind it, one that is not. -/
def Downgrades (first second : SentRequest) : Prop :=
  (urls.parse first.url none).map Url.protocol = some (js "https:") ∧
    (urls.parse second.url none).map Url.protocol = some (js "http:")

/-- A target that is accepted does not leave TLS. -/
theorem not_downgrades_of_safeRedirectTarget {location : JsString}
    (target : safeRedirectTarget urls location current = some next)
    (fields otherFields : List OrderedHeaderField) :
    ¬ Downgrades urls ⟨current, fields⟩ ⟨next, otherFields⟩ := by
  rintro ⟨secure, plain⟩
  simp only [safeRedirectTarget, Option.bind_eq_bind, Option.bind_eq_some_iff] at target
  obtain ⟨url, resolved, _, _, fromUrl, parsed, accepted⟩ := target
  split at accepted
  · cases accepted
  next safe =>
    cases accepted
    rw [parsed] at secure
    rw [urls.parse_href resolved] at plain
    exact safe ⟨Option.some.inj secure, Option.some.inj plain⟩

theorem isChain_not_downgrades {η : Type} {loop : RedirectLoop η}
    (target : loop.target = safeRedirectTarget urls) (left : Nat) (current : JsString)
    (responses : List RedirectResponse) (headers : η) :
    (loop.follow left current headers responses).1.IsChain fun first second =>
      ¬ Downgrades urls first second := by
  induction left generalizing current responses headers with
  | zero =>
    obtain none | ⟨-, single | ⟨rest, next, others, location, absurd, -⟩⟩ :=
      loop.follow_cases 0 current responses
    · rw [none]
      exact .nil
    · rw [single]
      exact .singleton _
    · cases absurd
  | succ left ih =>
    obtain none | ⟨-, single | ⟨rest, next, others, location, eq, isTarget, goes⟩⟩ :=
      loop.follow_cases (left + 1) current responses
    · rw [none]
      exact .nil
    · rw [single]
      exact .singleton _
    · cases eq
      rw [target] at isTarget
      rw [goes, List.isChain_cons]
      refine ⟨fun request isHead => ?_, ih next others _⟩
      obtain none | ⟨-, begins⟩ := @RedirectLoop.follow_begins _ loop left next others
      · rw [none] at isHead
        cases isHead
      · obtain ⟨tail, head⟩ := begins (loop.strip current next headers)
        rw [head] at isHead
        cases isHead
        exact not_downgrades_of_safeRedirectTarget urls isTarget _ _

/-! ## Redirects do not leak -/

/-- Two runs of a loop over the same answers: after the first hop that changes origin
they send the same requests, none of them with a secret. -/
def LeaksNothing (first second : List SentRequest) : Prop :=
  afterCrossing urls first = afterCrossing urls second ∧
    ∀ request ∈ afterCrossing urls first, WithoutSecrets request.fields

/-- What the redirect loops guarantee for every URL and every list of answers, whatever
two tokens and two lists of fields of the client they are run with. -/
theorem redirects_leak_nothing (fetches : JsString → Bool) (url token other : JsString)
    (extra : Headers) (clientFields otherFields : List OrderedHeaderField)
    (responses : List RedirectResponse) :
    (LeaksNothing urls (fetchWithRedirects urls fetches url token extra clientFields responses).1
        (fetchWithRedirects urls fetches url other extra otherFields responses).1 ∧
      LeaksNothing urls (undiciWithRedirects urls url token extra clientFields responses).1
        (undiciWithRedirects urls url other extra otherFields responses).1 ∧
      LeaksNothing urls (getWithRedirects urls url token responses).1
        (getWithRedirects urls url other responses).1) ∧
    ((∀ url, fetches url = (canonicalOrigin urls url).isSome) →
      (fetchWithRedirects urls fetches url token extra clientFields responses).1.map
          SentRequest.url =
        (undiciWithRedirects urls url token extra clientFields responses).1.map
          SentRequest.url) ∧
    ((fetchWithRedirects urls fetches url token extra clientFields responses).1.IsChain
        fun first second => ¬ Downgrades urls first second) ∧
      ((undiciWithRedirects urls url token extra clientFields responses).1.IsChain
        fun first second => ¬ Downgrades urls first second) ∧
    (fetchWithRedirects urls fetches url token extra clientFields responses).1.length ≤
        maxRedirects + 1 ∧
      (undiciWithRedirects urls url token extra clientFields responses).1.length ≤
        maxRedirects + 1 ∧
      (getWithRedirects urls url token responses).1.length ≤ maxRedirects + 1 := by
  have agree : SameGateway (outboundHeaderFields token extra clientFields)
      (outboundHeaderFields other extra otherFields) :=
    outboundHeaderFields_filter_isKept token other extra clientFields otherFields
  have agreeGet : SameKept (bearerHeaders token ++ [⟨js "content-type", js "application/json"⟩])
      (bearerHeaders other ++ [⟨js "content-type", js "application/json"⟩]) :=
    SameButSecret.filter_isKept (List.rel_append (forall₂_bearerHeaders token other)
      (.cons (SameButSecret.refl _) .nil))
  refine ⟨⟨?_, ?_, ?_⟩, ?_, ?_, ?_, ?_, ?_, ?_⟩
  · exact RedirectLoop.afterCrossing_follow urls (guards_fetchLoop urls fetches) _ _ _ agree
  · exact RedirectLoop.afterCrossing_follow urls (guards_undiciLoop urls) _ _ _ agree
  · exact RedirectLoop.afterCrossing_follow urls (guards_getLoop urls) _ _ _ agreeGet
  · intro sends
    exact @RedirectLoop.map_url_follow _ (fetchLoop urls fetches) _ (undiciLoop urls) (funext sends)
      rfl _ _ _ _ _
  · exact isChain_not_downgrades urls rfl _ _ _ _
  · exact isChain_not_downgrades urls rfl _ _ _ _
  · exact RedirectLoop.length_follow_le _ _ _ _
  · exact RedirectLoop.length_follow_le _ _ _ _
  · exact RedirectLoop.length_follow_le _ _ _ _

/-- A host over TLS with its root. -/
def rootOf (hostname : JsString) : Url where
  protocol := js "https:"
  username := []
  password := []
  hostname := hostname
  port := []
  otherOrigin := []
  href := js "https://" ++ hostname ++ js "/"
  port_http := fun absurd => by cases absurd
  port_https := fun _ absurd => by cases absurd

/-- A parser that reads the roots of two hosts. -/
def rootsOfTwo : UrlParser where
  parse input _ :=
    if input = (rootOf (js "a")).href then some (rootOf (js "a"))
    else if input = (rootOf (js "b")).href then some (rootOf (js "b"))
    else none
  parse_href := by
    have apart : (rootOf (js "b")).href ≠ (rootOf (js "a")).href := by decide
    intro input base url read
    split at read
    · cases read
      exact if_pos rfl
    · split at read
      · cases read
        rw [if_neg apart, if_pos rfl]
      · cases read

/-- What `fetch` takes requests for where `rootsOfTwo` reads the URLs. -/
def fetchesRoots (url : JsString) : Bool := (canonicalOrigin rootsOfTwo url).isSome

/-- A redirect to another host and back. -/
theorem redirects_leak_nothing_back :
    let responses : List RedirectResponse :=
      [⟨302, some (js "https://b/")⟩, ⟨302, some (js "https://a/")⟩, ⟨200, none⟩]
    let sent token clientFields := (fetchWithRedirects rootsOfTwo fetchesRoots (js "https://a/")
      token [] clientFields responses).1
    LeaksNothing rootsOfTwo (sent (js "one") [⟨js "x-mine", js "1"⟩]) (sent (js "two") []) ∧
      (sent (js "one") []).map SentRequest.url =
        (undiciWithRedirects rootsOfTwo (js "https://a/") (js "one") [] [] responses).1.map
          SentRequest.url :=
  ⟨(redirects_leak_nothing rootsOfTwo fetchesRoots _ _ _ _ _ _ _).1.1,
    (redirects_leak_nothing rootsOfTwo fetchesRoots _ _ (js "two") _ _ [] _).2.1 fun _ => rfl⟩

end GhcGateway.Copilot
