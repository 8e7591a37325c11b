import ControlPlane.Http.Chain

/-!
# The headers of every reply

A request can be answered at many places of the handler chain: by `withCORS` itself, by one of the
limits, by `secure`, by a route, by `http.TimeoutHandler` when the route is too late, and by
`withRecovery` after a panic. Wherever that happens, the reply carries the headers that the outer
wrappers have set: a wrapper further inside leaves a header as it is, or gives it one of a few
known values. An origin is named in a reply only if it is allowed.
-/

namespace ControlPlane

variable {L : Type*}

/-- The handler leaves the header as it is, or sets it to one of the given values. -/
def HttpHandler.Leaves (name : String) (values : List String) (h : HttpHandler L) : Prop :=
  ∀ g e, (h g e).1.header name = e.header name ∨
    ∃ v ∈ values, (h g e).1.header name = some v

/-- The values that errors and the response of `/stream` give to the header are among the given
ones. -/
structure Unforced (name : String) (values : List String) : Prop where
  length : name ≠ "Content-Length"
  type : name ≠ "Content-Type"
  connection : name ≠ "Connection"
  options : name = "X-Content-Type-Options" → "nosniff" ∈ values
  cache : name = "Cache-Control" → "no-cache" ∈ values

section Inner

variable {s : HttpServer L} {env : Conditions} {next : HttpHandler L} {name : String}
  {values : List String}

/-- A header has the value that it was set to. -/
theorem Header.set_self (h : Header) (name value : String) :
    h.set name value name = some value := Function.update_self ..

/-- Setting a header leaves the others as they are. -/
theorem Header.set_of_ne {name' : String} (h : Header) (value : String) (hne : name ≠ name') :
    h.set name' value name = h name := Function.update_of_ne hne ..

/-- `http.Error` leaves the header as it is, or sets it to one of the values. -/
theorem Unforced.error (h : Unforced name values) (e : Exchange) (text : String) (status : ℕ) :
    (e.error text status).header name = e.header name ∨
      ∃ v ∈ values, (e.error text status).header name = some v := by
  unfold Exchange.error
  by_cases hoptions : name = "X-Content-Type-Options"
  · subst hoptions
    refine .inr ⟨"nosniff", h.options rfl, ?_⟩
    dsimp only
    rw [Header.set_self]
  · left
    dsimp only
    rw [Header.set_of_ne _ _ hoptions, Header.set_of_ne _ _ h.type, Function.update_of_ne h.length]

/-- After a panic, the headers that were set stay. -/
theorem withRecovery_header (h : Unforced name values) (g : Gates L) (e : Exchange) :
    (HttpServer.withRecovery next g e).1.header name = (next g e).1.header name ∨
      ∃ v ∈ values, (HttpServer.withRecovery next g e).1.header name = some v := by
  unfold HttpServer.withRecovery
  split
  · rename_i w header g' hpanic
    rw [hpanic]
    exact h.error ⟨e.w, header, e.r⟩ "internal server error" 500
  · exact .inl rfl

/-- A late handler has not touched the headers of the writer, and one that is in time adds its own.
-/
theorem timeoutHandler_leaves (hnext : next.Leaves name values) :
    (HttpServer.timeoutHandler env next).Leaves name values := by
  intro g e
  have hinner := hnext g { e with w := .timeout e.w, header := fun _ => none }
  unfold HttpServer.timeoutHandler
  generalize next g _ = answered at hinner ⊢
  obtain ⟨⟨w, header, answer⟩, g'⟩ := answered
  dsimp only at hinner ⊢
  split
  · exact .inl rfl
  · exact .inl rfl
  · exact .inl rfl
  · -- The headers of the handler come before those that were set outside.
    rename_i hanswer
    cases hanswer
    dsimp only
    rcases hinner with hnone | ⟨v, hv, hset⟩
    · rw [hnone]
      exact .inl rfl
    · rw [hset]
      exact .inr ⟨v, hv, rfl⟩

/-- A request goes through the timeout or around it. -/
theorem withRequestTimeout_leaves (hnext : next.Leaves name values) :
    (HttpServer.withRequestTimeout env next).Leaves name values := by
  intro g e
  unfold HttpServer.withRequestTimeout
  split_ifs
  · exact hnext g e
  · exact timeoutHandler_leaves hnext g e

/-- A full server answers with an error. -/
theorem withConcurrencyLimit_leaves (h : Unforced name values) (hnext : next.Leaves name values) :
    (s.withConcurrencyLimit next).Leaves name values := by
  intro g e
  unfold HttpServer.withConcurrencyLimit
  split_ifs
  · exact hnext _ e
  · exact h.error e _ _

/-- So does the limit of an address. -/
theorem withRateLimit_leaves (h : Unforced name values) (hnext : next.Leaves name values) :
    (s.withRateLimit env next).Leaves name values := by
  intro g e
  simp only [HttpServer.withRateLimit]
  split_ifs
  · exact h.error e _ _
  · exact hnext _ e

/-- The recorder of the status has the headers of the writer. -/
theorem instrument_leaves (hnext : next.Leaves name values) :
    (HttpServer.instrument next).Leaves name values :=
  fun g e => hnext g { e with w := .recorder e.w }

/-- A refused request is answered with an error. -/
theorem secure_leaves (h : Unforced name values) (hnext : next.Leaves name values)
    (scope : Scope) : (s.secure env next scope).Leaves name values := by
  intro g e
  unfold HttpServer.secure
  split
  · exact hnext _ e
  · exact h.error e _ _

/-- `handleStream` sets three headers, of which the wrappers set one, and errors on top of them. -/
theorem handleStream_leaves (h : Unforced name values) :
    (s.handleStream env).Leaves name values := by
  intro g e
  -- The headers that are set before the subscription.
  have hset : (((e.header.set "Content-Type" "text/event-stream").set "Cache-Control"
      "no-cache").set "Connection" "keep-alive") name = e.header name ∨ ∃ v ∈ values,
      (((e.header.set "Content-Type" "text/event-stream").set "Cache-Control"
        "no-cache").set "Connection" "keep-alive") name = some v := by
    rw [Header.set_of_ne _ _ h.connection]
    by_cases hcache : name = "Cache-Control"
    · subst hcache
      exact .inr ⟨"no-cache", h.cache rfl, Header.set_self ..⟩
    · rw [Header.set_of_ne _ _ hcache, Header.set_of_ne _ _ h.type]
      exact .inl rfl
  unfold HttpServer.handleStream
  split_ifs
  · exact h.error e _ _
  · exact h.error e _ _
  · dsimp only
    split
    · rename_i err herr
      rcases h.error ⟨e.w, _, e.r⟩ ("subscribe error: " ++ err) 500 with hsame | hforced
      · rw [hsame]
        exact hset
      · exact .inr hforced
    · exact hset

/-- `writeJSON` sets the type of the content only. -/
theorem Unforced.reply (h : Unforced name values) (e : Exchange)
    (result : HttpServer.RouteResult) : (result.reply e).header name = e.header name ∨
      ∃ v ∈ values, (result.reply e).header name = some v := by
  cases result with
  | error text status => exact h.error e text status
  | json status body => exact .inl (Header.set_of_ne _ _ h.type)
  | panicked => exact .inl rfl

/-- The routes of the repository leave the header alone if the library behind `/metrics` does. -/
theorem routes_leaves (h : Unforced name values) {metrics : HttpHandler L}
    (hmetrics : metrics.Leaves name values)
    (serve : HttpServer.Endpoint → HttpRequest → HttpServer.RouteResult) :
    (s.routes env metrics serve).Leaves name values := by
  intro g e
  unfold HttpServer.routes
  split_ifs
  · exact hmetrics g e
  · split
    · exact h.error e _ _
    · dsimp only
      split
      · exact h.reply e _
      · exact secure_leaves h (fun _ e => h.reply e _) _ g e

/-- Every route leaves the header alone if the other routes do. -/
theorem mux_leaves (h : Unforced name values) (hothers : s.others.Leaves name values) :
    (s.mux env).Leaves name values := by
  intro g e
  unfold HttpServer.mux
  split_ifs
  · exact secure_leaves h (handleStream_leaves h) .read g e
  · exact hothers g e

variable (env) in
/-- Everything behind `withRequestID`. -/
theorem routed_leaves (h : Unforced name values) (hothers : s.others.Leaves name values) :
    (HttpServer.withRequestTimeout env (s.withConcurrencyLimit (s.withRateLimit env
      (HttpServer.instrument (s.mux env))))).Leaves name values :=
  withRequestTimeout_leaves (withConcurrencyLimit_leaves h (withRateLimit_leaves h
    (instrument_leaves (mux_leaves h hothers))))

end Inner

/-- The headers that the wrappers outside of the routes set, with the values that they may get
further inside. -/
def chainHeaders : List (String × List String) :=
  [("Access-Control-Allow-Origin", []), ("X-Request-Id", []),
    ("X-Content-Type-Options", ["nosniff"]), ("X-Frame-Options", []), ("Referrer-Policy", []),
    ("Cache-Control", ["no-cache"]), ("Strict-Transport-Security", []),
    ("Content-Security-Policy", [])]

/-- The errors and `/stream` give the headers of the wrappers only the listed values. -/
theorem unforced_of_mem {p : String × List String} (h : p ∈ chainHeaders) :
    Unforced p.1 p.2 := by
  simp only [chainHeaders, List.mem_cons, List.not_mem_nil, or_false] at h
  rcases h with rfl | rfl | rfl | rfl | rfl | rfl | rfl | rfl <;>
    exact ⟨by decide, by decide, by decide, by decide, by decide⟩

namespace HttpServer

variable (s : HttpServer L) (env : Conditions) (r : HttpRequest)

/-- The request is answered by `withCORS` itself. -/
def Preflight : Prop := s.settings.corsEnabled = true ∧ r.method = "OPTIONS"

/-- The origin that is named in a reply: that of the request, if it is allowed. -/
def namedOrigin : Option String :=
  if s.settings.corsEnabled = true ∧ trimSpace r.origin.toList ≠ [] ∧
      isAllowedOrigin (trimSpace r.origin.toList) s.settings.corsAllowedOrigins = true then
    some (String.ofList (trimSpace r.origin.toList))
  else none

/-- The identifier that a reply carries. -/
def replyID : String :=
  if trimSpace r.requestID.toList = [] then env.newRequestID
  else String.ofList (trimSpace r.requestID.toList)

/-- The headers that `withCORS` sets. -/
def corsHeader (header : Header) : Header :=
  match s.namedOrigin r with
  | some origin => header
      |>.set "Access-Control-Allow-Origin" origin
      |>.set "Vary" "Origin"
      |>.set "Access-Control-Allow-Credentials" "true"
      |>.set "Access-Control-Allow-Methods" (", ".intercalate s.settings.corsAllowedMethods)
      |>.set "Access-Control-Allow-Headers" (", ".intercalate s.settings.corsAllowedHeaders)
  | none => header

/-- The headers that `withSecurityHeaders` sets. -/
def securityHeader (header : Header) : Header :=
  if s.settings.securityHeadersEnabled then
    let header := header
      |>.set "X-Content-Type-Options" "nosniff"
      |>.set "X-Frame-Options" "DENY"
      |>.set "Referrer-Policy" "no-referrer"
      |>.set "Cache-Control" "no-store"
    let header :=
      if s.settings.hstsEnabled then
        header.set "Strict-Transport-Security" "max-age=31536000; includeSubDomains"
      else header
    if trimSpace s.settings.cspHeader.toList ≠ [] then
      header.set "Content-Security-Policy" s.settings.cspHeader
    else header
  else header

/-- The headers with which a request reaches the limits and the routes. -/
def routedHeader : Header :=
  (s.securityHeader (s.corsHeader r fun _ => none)).set "X-Request-Id" (replyID env r)

variable {s env r} {next : HttpHandler L} {g : Gates L} {e : Exchange}

/-- `withCORS` answers the preflight requests itself and passes on the others. -/
theorem withCORS_eq : s.withCORS next g e =
    if s.settings.corsEnabled = true ∧ e.r.method = "OPTIONS" then
      (⟨e.w, s.corsHeader e.r e.header, .wrote 204 ""⟩, g)
    else next g { e with header := s.corsHeader e.r e.header } := by
  unfold withCORS corsHeader namedOrigin
  by_cases hcors : s.settings.corsEnabled = true
  · by_cases hallowed : trimSpace e.r.origin.toList ≠ [] ∧
        isAllowedOrigin (trimSpace e.r.origin.toList) s.settings.corsAllowedOrigins = true
    · simp [hcors, hallowed]
    · simp [hcors, hallowed]
  · simp [hcors]

/-- The answer to a preflight request. -/
theorem withCORS_of_preflight (h : s.Preflight e.r) :
    s.withCORS next g e = (⟨e.w, s.corsHeader e.r e.header, .wrote 204 ""⟩, g) :=
  withCORS_eq.trans (if_pos h)

/-- Any other request is passed on with the headers. -/
theorem withCORS_of_not_preflight (h : ¬s.Preflight e.r) :
    s.withCORS next g e = next g { e with header := s.corsHeader e.r e.header } :=
  withCORS_eq.trans (if_neg h)

/-- `withSecurityHeaders` passes every request on with the headers. -/
theorem withSecurityHeaders_eq : s.withSecurityHeaders next g e =
    next g { e with header := s.securityHeader e.header } := by
  unfold withSecurityHeaders securityHeader
  split_ifs <;> rfl

/-- A preflight request goes no further than `withCORS`. -/
theorem handler_of_preflight (h : s.Preflight e.r) : s.handler env g e =
    (⟨e.w, s.corsHeader e.r e.header, .wrote 204 ""⟩, g) := by
  unfold handler withRecovery
  rw [withCORS_of_preflight h]

/-- Any other request reaches the limits and the routes with the headers of the wrappers, and keeps
them on the way back. -/
theorem handler_header {w : ResponseWriter} (h : ¬s.Preflight r)
    (hothers : ∀ p ∈ chainHeaders, s.others.Leaves p.1 p.2) {p : String × List String}
    (hp : p ∈ chainHeaders) :
    (s.handler env g ⟨w, fun _ => none, r⟩).1.header p.1 = s.routedHeader env r p.1 ∨
      ∃ v ∈ p.2, (s.handler env g ⟨w, fun _ => none, r⟩).1.header p.1 = some v := by
  have hunforced := unforced_of_mem hp
  have hrouted := routed_leaves env hunforced (hothers p hp) g
    ⟨w, s.routedHeader env r, r⟩
  rcases withRecovery_header hunforced g ⟨w, fun _ => none, r⟩ with hsame | hset
  · rw [handler, hsame, withCORS_of_not_preflight h, withSecurityHeaders_eq]
    exact hrouted
  · exact .inr hset

/-- `withCORS` names the allowed origin and no other. -/
theorem corsHeader_origin :
    s.corsHeader r (fun _ => none) "Access-Control-Allow-Origin" = s.namedOrigin r := by
  unfold corsHeader
  cases s.namedOrigin r with
  | none => rfl
  | some origin =>
    dsimp only
    rw [Header.set_of_ne _ _ (by decide), Header.set_of_ne _ _ (by decide),
      Header.set_of_ne _ _ (by decide), Header.set_of_ne _ _ (by decide), Header.set_self]

/-- What `withSecurityHeaders` leaves alone. -/
theorem securityHeader_of_notMem {name : String} (header : Header)
    (h : name ∉ ["X-Content-Type-Options", "X-Frame-Options", "Referrer-Policy", "Cache-Control",
      "Strict-Transport-Security", "Content-Security-Policy"]) :
    s.securityHeader header name = header name := by
  simp only [List.mem_cons, List.not_mem_nil, or_false, not_or] at h
  obtain ⟨hoptions, hframe, hreferrer, hcache, hhsts, hcsp⟩ := h
  unfold securityHeader
  split_ifs <;> simp [Header.set_of_ne, hoptions, hframe, hreferrer, hcache, hhsts, hcsp]

/-- What `withSecurityHeaders` sets. -/
theorem securityHeader_values (header : Header) (h : s.settings.securityHeadersEnabled = true) :
    s.securityHeader header "X-Content-Type-Options" = some "nosniff" ∧
      s.securityHeader header "X-Frame-Options" = some "DENY" ∧
      s.securityHeader header "Referrer-Policy" = some "no-referrer" ∧
      s.securityHeader header "Cache-Control" = some "no-store" ∧
      (s.settings.hstsEnabled = true → s.securityHeader header "Strict-Transport-Security" =
        some "max-age=31536000; includeSubDomains") ∧
      (trimSpace s.settings.cspHeader.toList ≠ [] →
        s.securityHeader header "Content-Security-Policy" = some s.settings.cspHeader) := by
  unfold securityHeader
  rw [if_pos h]
  split_ifs <;> simp [Header.set, *]

end HttpServer

/-- **Every reply carries its headers.** Let the routes leave the headers of the wrappers alone. Then
for every request, in every state of the limits and whatever goes wrong on the way (a full server, a
rate limit, a refused token, a late or panicking route): the reply names the origin of the request
exactly if it is allowed. Unless it answers a preflight request, it carries the identifier of the
request and, if they are enabled, all security headers. -/
theorem replies_carry_headers {s : HttpServer L} (env : Conditions) (g : Gates L)
    (w : ResponseWriter) (r : HttpRequest)
    (hothers : ∀ p ∈ chainHeaders, s.others.Leaves p.1 p.2) :
    let header := (s.handler env g ⟨w, fun _ => none, r⟩).1.header
    header "Access-Control-Allow-Origin" = s.namedOrigin r ∧
      (¬s.Preflight r → header "X-Request-Id" = some (HttpServer.replyID env r) ∧
        (s.settings.securityHeadersEnabled = true →
          header "X-Content-Type-Options" = some "nosniff" ∧
          header "X-Frame-Options" = some "DENY" ∧
          header "Referrer-Policy" = some "no-referrer" ∧
          (header "Cache-Control" = some "no-store" ∨ header "Cache-Control" = some "no-cache") ∧
          (s.settings.hstsEnabled = true →
            header "Strict-Transport-Security" = some "max-age=31536000; includeSubDomains") ∧
          (trimSpace s.settings.cspHeader.toList ≠ [] →
            header "Content-Security-Policy" = some s.settings.cspHeader))) := by
  intro header
  by_cases hpreflight : s.Preflight r
  · refine ⟨?_, fun h => absurd hpreflight h⟩
    have hreply : s.handler env g ⟨w, fun _ => none, r⟩ = _ :=
      HttpServer.handler_of_preflight hpreflight
    change (s.handler env g ⟨w, fun _ => none, r⟩).1.header _ = _
    rw [hreply]
    exact HttpServer.corsHeader_origin
  · -- A header that nothing inside may change has the value with which the request was routed.
    have hkept : ∀ name, (name, []) ∈ chainHeaders → header name = s.routedHeader env r name := by
      intro name hmem
      refine (HttpServer.handler_header hpreflight hothers hmem).resolve_right ?_
      rintro ⟨v, hv, -⟩
      cases hv
    have hrouted : ∀ name ≠ "X-Request-Id", s.routedHeader env r name =
        s.securityHeader (s.corsHeader r fun _ => none) name :=
      fun name hne => Header.set_of_ne _ _ hne
    refine ⟨?_, fun _ => ⟨?_, fun henabled => ?_⟩⟩
    · rw [hkept _ (by decide), hrouted _ (by decide),
        HttpServer.securityHeader_of_notMem _ (by decide), HttpServer.corsHeader_origin]
    · rw [hkept _ (by decide)]
      exact Header.set_self ..
    · obtain ⟨hoptions, hframe, hreferrer, hcache, hhsts, hcsp⟩ :=
        HttpServer.securityHeader_values (s.corsHeader r fun _ => none) henabled
      refine ⟨?_, ?_, ?_, ?_, fun h => ?_, fun h => ?_⟩
      · have hmem : ("X-Content-Type-Options", ["nosniff"]) ∈ chainHeaders := by decide
        rcases HttpServer.handler_header hpreflight hothers hmem with hsame | ⟨v, hv, hset⟩
        · exact hsame.trans ((hrouted _ (by decide)).trans hoptions)
        · rw [List.mem_singleton.mp hv] at hset
          exact hset
      · rw [hkept _ (by decide), hrouted _ (by decide), hframe]
      · rw [hkept _ (by decide), hrouted _ (by decide), hreferrer]
      · have hmem : ("Cache-Control", ["no-cache"]) ∈ chainHeaders := by decide
        rcases HttpServer.handler_header hpreflight hothers hmem with hsame | ⟨v, hv, hset⟩
        · exact .inl (hsame.trans ((hrouted _ (by decide)).trans hcache))
        · rw [List.mem_singleton.mp hv] at hset
          exact .inr hset
      · rw [hkept _ (by decide), hrouted _ (by decide), hhsts h]
      · rw [hkept _ (by decide), hrouted _ (by decide), hcsp h]

/-- A request from another origin that brings its own identifier. -/
def crossOrigin : HttpRequest := { HttpServer.getStream with
  path := "/events", origin := "localhost:3000", requestID := " r7 " }

/-- The handlers of the endpoints, where the probes answer and all others fail. -/
def probes : HttpServer.Endpoint → HttpRequest → HttpServer.RouteResult
  | .livez, _ => .json 200 "alive"
  | .healthz, _ | .readyz, _ => .json 200 "ok"
  | .startupz, _ => .json 200 "started"
  | _, _ => .error "store unavailable" 503

/-- A server with the routes of the repository that allows requests from that origin. -/
def openServer : HttpServer Unit :=
  let server := { HttpServer.unset with
    settings := { HttpServer.unset.settings with
      corsEnabled := true, corsAllowedOrigins := ["localhost:3000"] } }
  { server with
    others := server.routes HttpServer.undisturbed (fun g e => (e.error "no metrics" 500, g))
      probes }

/-- A server that is full refuses a request, with the headers. -/
theorem replies_carry_headers_busy :
    let reply := (openServer.handler HttpServer.undisturbed
      { Gates.new openServer.settings 0 with inFlight := 100000 }
      ⟨.server true, fun _ => none, crossOrigin⟩).1
    reply.answer = .wrote 503 "server busy\n" ∧
      reply.header "Access-Control-Allow-Origin" = some "localhost:3000" ∧
      reply.header "X-Request-Id" = some "r7" ∧ reply.header "X-Frame-Options" = some "DENY" := by
  intro reply
  have hothers : ∀ p ∈ chainHeaders, openServer.others.Leaves p.1 p.2 := fun p hp =>
    routes_leaves (unforced_of_mem hp) (fun _ e => (unforced_of_mem hp).error e _ _) probes
  obtain ⟨horigin, hrest⟩ := replies_carry_headers HttpServer.undisturbed
    { Gates.new openServer.settings 0 with inFlight := 100000 } (.server true) crossOrigin hothers
  obtain ⟨hid, hsecurity⟩ := hrest fun h => absurd h.2 (by decide)
  obtain ⟨-, hframe, -⟩ := hsecurity (by decide +kernel)
  refine ⟨?_, horigin.trans (by decide +kernel), hid.trans (by decide +kernel), hframe⟩
  rfl

end ControlPlane
