import ControlPlane.App.Stream
import ControlPlane.Http.IPLimiter
import ControlPlane.Http.Secure

/-!
# The handlers around the routes

`Run` wraps its routes into eight handlers. Each of them refuses the request, or sets headers
and passes it on, and two of them pass on another writer than the one they were given: the
timeout, which `/stream` goes around, and the recorder of the status, which nothing goes
around. The recorder embeds the interface `http.ResponseWriter`, so whatever else the writer of
the server can do is lost behind it; `handleStream` needs the writer to be a flusher.
-/

namespace ControlPlane

open Text

/-- The writers that a handler may be given: that of the server, the buffer of
`http.TimeoutHandler` in front of a writer, and a `statusRecorder` in front of a writer. -/
inductive ResponseWriter
  | server (flusher : Bool)
  | timeout (w : ResponseWriter)
  | recorder (w : ResponseWriter)
  deriving DecidableEq

/-- The type assertion `w.(http.Flusher)`. Neither the buffer nor the recorder has a method
`Flush`. -/
def ResponseWriter.isFlusher : ResponseWriter → Bool
  | .server flusher => flusher
  | .timeout _ | .recorder _ => false

/-- `http.Header`, with at most one value for a name. -/
abbrev Header := String → Option String

/-- `Header.Set`. -/
def Header.set (h : Header) (name value : String) : Header := Function.update h name (some value)

/-- What is read of a request on its way to a route. -/
structure HttpRequest extends Request where
  path : String
  origin : String
  requestID : String
  subject : String
  consumer : String

/-- What a handler is called with: the writer, the headers that are set so far, the request. -/
structure Exchange where
  w : ResponseWriter
  header : Header
  r : HttpRequest

/-- What a handler makes of a request: it writes a status and a body, enters the loop that
writes events, or panics. -/
inductive Answer
  | wrote (status : ℕ) (body : String)
  | streams (loop : StreamLoop)
  | panicked

/-- An answer with the writer that it was written to, and the headers. -/
structure Reply where
  w : ResponseWriter
  header : Header
  answer : Answer

/-- `http.Error`. -/
def Exchange.error (e : Exchange) (text : String) (status : ℕ) : Reply where
  w := e.w
  header := Header.set (Header.set (Function.update e.header "Content-Length" none) "Content-Type"
    "text/plain; charset=utf-8") "X-Content-Type-Options" "nosniff"
  answer := .wrote status (text ++ "\n")

/-- `writeJSON`. -/
def Exchange.writeJSON (e : Exchange) (status : ℕ) (body : String) : Reply where
  w := e.w
  header := e.header.set "Content-Type" "application/json"
  answer := .wrote status body

/-- The state that requests share: the limiter, the number of places taken in the channel
`guard`, and the guard against failed authorizations. -/
structure Gates (L : Type*) where
  limiter : IPRateLimiter L
  inFlight : ℕ
  authGuard : AuthGuard

/-- The state that `New` creates. -/
def Gates.new {L : Type*} (c : RunSettings) (now : Time) : Gates L where
  limiter := .newIPRateLimiter (max 1 c.rateLimitRPS) (max 1 c.rateLimitBurst)
    (max 100 c.rateLimitMaxIPs) c.limiterTTL.duration now
  inFlight := 0
  authGuard := c.authGuard

/-- What a request meets besides the shared state: the identifier that `newRequestID` would
make, the limiter's reading of the clock and of its map, the clock in `secure`, the end of the
context of `http.TimeoutHandler` if it comes before the handler's, and the error of
`Subscribe`. -/
structure Conditions where
  newRequestID : String
  now : Time
  drawn : Time
  order : List String
  clock : Clock
  timedOut : Option CtxError
  subscribeError : Option String

/-- The call that `withRateLimit` makes to the limiter. -/
def Conditions.limiterCall (env : Conditions) (r : HttpRequest) : LimiterCall :=
  ⟨r.remoteAddr, env.now, env.drawn, env.order⟩

/-- A handler, as a function of the shared state and the exchange. -/
abbrev HttpHandler (L : Type*) := Gates L → Exchange → Reply × Gates L

/-- The application that serves: its configuration, the library of the limiter, its number and
whether it has a bus, and the handlers of the other routes. -/
structure HttpServer (L : Type*) where
  settings : RunSettings
  rate : RateLib L
  node : ℕ
  bus : Bool
  others : HttpHandler L

/-- `isAllowedOrigin`: a star allows every origin. -/
def isAllowedOrigin (origin : List Char) (allowed : List String) : Bool :=
  allowed.any fun o =>
    let o := trimSpace o.toList
    o ≠ [] ∧ (o = ['*'] ∨ o = origin)

namespace HttpServer

variable {L : Type*} (s : HttpServer L) (env : Conditions) (next : HttpHandler L)

/-- `withRecovery` answers a panic with an error, and keeps the headers that were set before it. -/
def withRecovery : HttpHandler L := fun g e =>
  match next g e with
  | (⟨_, header, .panicked⟩, g) =>
      (Exchange.error ⟨e.w, header, e.r⟩ "internal server error" 500, g)
  | answered => answered

/-- `withCORS` names an allowed origin, and answers every preflight request itself. -/
def withCORS : HttpHandler L := fun g e =>
  if !s.settings.corsEnabled then next g e
  else
    let origin := trimSpace e.r.origin.toList
    let e :=
      if origin ≠ [] ∧ isAllowedOrigin origin s.settings.corsAllowedOrigins then
        { e with
          header := e.header
            |>.set "Access-Control-Allow-Origin" (String.ofList origin)
            |>.set "Vary" "Origin"
            |>.set "Access-Control-Allow-Credentials" "true"
            |>.set "Access-Control-Allow-Methods" (", ".intercalate s.settings.corsAllowedMethods)
            |>.set "Access-Control-Allow-Headers"
              (", ".intercalate s.settings.corsAllowedHeaders) }
      else e
    if e.r.method = "OPTIONS" then (⟨e.w, e.header, .wrote 204 ""⟩, g) else next g e

/-- `withSecurityHeaders`. -/
def withSecurityHeaders : HttpHandler L := fun g e =>
  if s.settings.securityHeadersEnabled then
    let header := e.header
      |>.set "X-Content-Type-Options" "nosniff"
      |>.set "X-Frame-Options" "DENY"
      |>.set "Referrer-Policy" "no-referrer"
      |>.set "Cache-Control" "no-store"
    let header :=
      if s.settings.hstsEnabled then
        header.set "Strict-Transport-Security" "max-age=31536000; includeSubDomains"
      else header
    let header :=
      if trimSpace s.settings.cspHeader.toList ≠ [] then
        header.set "Content-Security-Policy" s.settings.cspHeader
      else header
    next g { e with header }
  else next g e

/-- `withRequestID` keeps the identifier that the request brings, if it brings one. -/
def withRequestID : HttpHandler L := fun g e =>
  let given := trimSpace e.r.requestID.toList
  let rid := if given = [] then env.newRequestID else String.ofList given
  next g { e with header := e.header.set "X-Request-Id" rid }

/-- `http.TimeoutHandler` gives the handler a buffer with headers of its own, which are added to
those of the writer if the handler is not too late. -/
def timeoutHandler : HttpHandler L := fun g e =>
  let (reply, g) := next g { e with w := .timeout e.w, header := fun _ => none }
  match env.timedOut, reply with
  | some .deadlineExceeded, _ => (⟨e.w, e.header, .wrote 503 "request timeout"⟩, g)
  | some .canceled, _ => (⟨e.w, e.header, .wrote 503 ""⟩, g)
  | none, ⟨_, _, .panicked⟩ => (⟨e.w, e.header, .panicked⟩, g)
  | none, ⟨w, header, answer⟩ => (⟨w, fun name => (header name).or (e.header name), answer⟩, g)

/-- `withRequestTimeout`, which `/stream` goes around. -/
def withRequestTimeout : HttpHandler L := fun g e =>
  if e.r.path = "/stream" then next g e else timeoutHandler env next g e

/-- `withConcurrencyLimit` gives the place back when the handler returns. -/
def withConcurrencyLimit : HttpHandler L := fun g e =>
  if (g.inFlight : ℤ) < max 1 s.settings.maxConcurrentRequests then
    let (answered, g') := next { g with inFlight := g.inFlight + 1 } e
    (answered, { g' with inFlight := g.inFlight })
  else (e.error "server busy" 503, g)

/-- `withRateLimit`. -/
def withRateLimit : HttpHandler L := fun g e =>
  let (ok, limiter) := g.limiter.allow s.rate (env.limiterCall e.r)
  let g := { g with limiter }
  if !ok then (e.error "rate limit exceeded" 429, g) else next g e

/-- The tracing, the metrics and the audit log are left out. -/
def instrument : HttpHandler L := fun g e => next g { e with w := .recorder e.w }

/-- `secure`: a refused request does not reach the handler. -/
def secure (scope : Scope) : HttpHandler L := fun g e =>
  match s.settings.secure scope e.r.toRequest env.clock g.authGuard with
  | (.served, authGuard) => next { g with authGuard } e
  | (.refused status text, authGuard) => (e.error text status, { g with authGuard })

/-- `handleStream`, up to the loop that writes events. The type of the writer is checked before
anything is written. -/
def handleStream : HttpHandler L := fun g e =>
  if !s.bus then (e.error "event bus not configured" 500, g)
  else if !e.w.isFlusher then (e.error "streaming unsupported" 500, g)
  else
    let header := e.header
      |>.set "Content-Type" "text/event-stream"
      |>.set "Cache-Control" "no-cache"
      |>.set "Connection" "keep-alive"
    match env.subscribeError with
    | some err => (Exchange.error ⟨e.w, header, e.r⟩ ("subscribe error: " ++ err) 500, g)
    | none =>
        let loop := StreamLoop.ofQuery s.settings.toConfig s.node e.r.subject e.r.consumer
        (⟨e.w, header, .streams loop⟩, g)

/-- The routes of `Run` besides `/metrics` and `/stream`. -/
inductive Endpoint
  | healthz
  | readyz
  | livez
  | startupz
  | leaderz
  | events
  | deadletters
  | deadlettersReplay
  | outboxRelay
  deriving DecidableEq

/-- The endpoint that the mux finds for a path. -/
def Endpoint.ofPath : String → Option Endpoint
  | "/healthz" => some healthz
  | "/readyz" => some readyz
  | "/livez" => some livez
  | "/startupz" => some startupz
  | "/leaderz" => some leaderz
  | "/events" => some events
  | "/deadletters" => some deadletters
  | "/deadletters/replay" => some deadlettersReplay
  | "/admin/outbox-relay" => some outboxRelay
  | _ => none

/-- The scope that `secure` asks for, where the endpoint is wrapped in it. -/
def Endpoint.scope : Endpoint → Option Scope
  | healthz | readyz | livez | startupz => none
  | events => some .rw
  | leaderz | deadletters | deadlettersReplay | outboxRelay => some .admin

/-- How the handlers of the endpoints end: with `http.Error`, with `writeJSON`, or with a panic
before either. -/
inductive RouteResult
  | error (text : String) (status : ℕ)
  | json (status : ℕ) (body : String)
  | panicked

/-- The reply of a handler that ends in this way. -/
def RouteResult.reply (e : Exchange) : RouteResult → Reply
  | error text status => e.error text status
  | json status body => e.writeJSON status body
  | panicked => ⟨e.w, e.header, .panicked⟩

/-- The mux without `/stream`, for handlers of the endpoints that end as `serve` says, and a handler
of the library behind `/metrics`. -/
def routes (metrics : HttpHandler L) (serve : Endpoint → HttpRequest → RouteResult) :
    HttpHandler L := fun g e =>
  if e.r.path = "/metrics" then metrics g e
  else
    match Endpoint.ofPath e.r.path with
    | none => (e.error "404 page not found" 404, g)
    | some endpoint =>
        let next : HttpHandler L := fun g e => ((serve endpoint e.r).reply e, g)
        match endpoint.scope with
        | none => next g e
        | some scope => s.secure env next scope g e

/-- The routes of `Run`. -/
def mux : HttpHandler L := fun g e =>
  if e.r.path = "/stream" then s.secure env (s.handleStream env) .read g e else s.others g e

/-- The handler that `Run` gives to its server. -/
def handler : HttpHandler L :=
  withRecovery (s.withCORS (s.withSecurityHeaders (withRequestID env (withRequestTimeout env
    (s.withConcurrencyLimit (s.withRateLimit env (instrument (s.mux env))))))))

/-- The request passes the limit of concurrent requests, the limit of its address, and the
authorization of `/stream`. -/
structure Passes (g : Gates L) (r : HttpRequest) : Prop where
  concurrency : (g.inFlight : ℤ) < max 1 s.settings.maxConcurrentRequests
  rate : (g.limiter.allow s.rate (env.limiterCall r)).1 = true
  auth : (s.settings.secure .read r.toRequest env.clock g.authGuard).1 = .served

end HttpServer

/-- The request was passed a flusher and entered the loop that writes events. -/
def Reply.Streams (reply : Reply) : Prop :=
  reply.w.isFlusher = true ∧ ∃ loop, reply.answer = .streams loop

namespace HttpServer

variable {L : Type*} {s : HttpServer L} {env : Conditions} {g : Gates L} {e : Exchange}

/-- Called with a flusher, `handleStream` enters its loop. -/
theorem handleStream_of_flusher (hbus : s.bus = true) (hw : e.w.isFlusher = true)
    (hsubscribe : env.subscribeError = none) : (s.handleStream env g e).1.Streams := by
  simp [handleStream, hbus, hw, hsubscribe, Reply.Streams]

/-- Called with any other writer, it refuses the request. -/
theorem handleStream_of_not_flusher (hbus : s.bus = true) (hw : e.w.isFlusher = false) :
    (s.handleStream env g e).1 = e.error "streaming unsupported" 500 := by
  simp [handleStream, hbus, hw]

/-- It does not panic. -/
theorem handleStream_answers : (s.handleStream env g e).1.answer ≠ .panicked := by
  simp only [handleStream]
  split_ifs
  · simp [Exchange.error]
  · simp [Exchange.error]
  · cases env.subscribeError with
    | none => simp
    | some err => simp [Exchange.error]

variable (s env) in
/-- The request is answered by `handleStream`, which is passed the writer `w'`. -/
def ReachesStream (h : HttpHandler L) (w' : ResponseWriter) (g : Gates L) (e : Exchange) : Prop :=
  ∃ g' header, (h g e).1 = (s.handleStream env g' ⟨w', header, e.r⟩).1

section Wrappers

variable {next : HttpHandler L} {w w' : ResponseWriter} {header : Header} {r : HttpRequest}

/-- An authorized request passes `secure`. -/
theorem reachesStream_secure
    (h : (s.settings.secure .read r.toRequest env.clock g.authGuard).1 = .served) :
    s.ReachesStream env (s.secure env (s.handleStream env) .read) w g ⟨w, header, r⟩ := by
  unfold ReachesStream secure
  dsimp only
  split
  · exact ⟨_, _, rfl⟩
  · rename_i hrefused
    rw [hrefused] at h
    cases h

/-- A request for `/stream` is routed to `handleStream`. -/
theorem reachesStream_mux (hpath : r.path = "/stream")
    (h : (s.settings.secure .read r.toRequest env.clock g.authGuard).1 = .served) :
    s.ReachesStream env (s.mux env) w g ⟨w, header, r⟩ := by
  unfold ReachesStream mux
  rw [if_pos hpath]
  exact reachesStream_secure h

/-- The recorder is put in front of the writer. -/
theorem reachesStream_instrument
    (h : s.ReachesStream env next w' g ⟨.recorder w, header, r⟩) :
    s.ReachesStream env (instrument next) w' g ⟨w, header, r⟩ := h

/-- A request that the limiter allows is passed on. -/
theorem reachesStream_withRateLimit
    (hallow : (g.limiter.allow s.rate (env.limiterCall r)).1 = true)
    (h : ∀ limiter, s.ReachesStream env next w' { g with limiter } ⟨w, header, r⟩) :
    s.ReachesStream env (s.withRateLimit env next) w' g ⟨w, header, r⟩ := by
  unfold ReachesStream
  simp only [withRateLimit, hallow, Bool.not_true, Bool.false_eq_true, if_false]
  exact h _

/-- A request that finds a place is passed on. -/
theorem reachesStream_withConcurrencyLimit
    (hroom : (g.inFlight : ℤ) < max 1 s.settings.maxConcurrentRequests)
    (h : ∀ inFlight, s.ReachesStream env next w' { g with inFlight } ⟨w, header, r⟩) :
    s.ReachesStream env (s.withConcurrencyLimit next) w' g ⟨w, header, r⟩ := by
  unfold ReachesStream
  simp only [withConcurrencyLimit, if_pos hroom]
  exact h _

/-- The request goes around the timeout. -/
theorem reachesStream_withRequestTimeout (hpath : r.path = "/stream")
    (h : s.ReachesStream env next w' g ⟨w, header, r⟩) :
    s.ReachesStream env (withRequestTimeout env next) w' g ⟨w, header, r⟩ := by
  unfold ReachesStream withRequestTimeout
  rwa [if_pos hpath]

/-- Only a header is set. -/
theorem reachesStream_withRequestID
    (h : ∀ header, s.ReachesStream env next w' g ⟨w, header, r⟩) :
    s.ReachesStream env (withRequestID env next) w' g ⟨w, header, r⟩ := h _

/-- Only headers are set. -/
theorem reachesStream_withSecurityHeaders
    (h : ∀ header, s.ReachesStream env next w' g ⟨w, header, r⟩) :
    s.ReachesStream env (s.withSecurityHeaders next) w' g ⟨w, header, r⟩ := by
  unfold ReachesStream withSecurityHeaders
  dsimp only
  split
  · exact h _
  · exact h _

/-- A request that is no preflight is passed on. -/
theorem reachesStream_withCORS (hmethod : r.method = "GET")
    (h : ∀ header, s.ReachesStream env next w' g ⟨w, header, r⟩) :
    s.ReachesStream env (s.withCORS next) w' g ⟨w, header, r⟩ := by
  have hoptions : ¬r.method = "OPTIONS" := by
    rw [hmethod]
    decide
  unfold ReachesStream withCORS
  dsimp only
  split
  · exact h _
  · -- whether or not the origin is allowed, the request is the same and only headers are set
    split
    · exact h _
    · exact h _

/-- `handleStream` does not panic, so there is nothing to recover from. -/
theorem reachesStream_withRecovery (h : s.ReachesStream env next w' g e) :
    s.ReachesStream env (withRecovery next) w' g e := by
  obtain ⟨g', header, heq⟩ := h
  refine ⟨g', header, ?_⟩
  rw [← heq]
  unfold withRecovery
  split
  · rename_i hnext
    have hpanicked : (next g e).1.answer = .panicked := by rw [hnext]
    rw [heq] at hpanicked
    exact absurd hpanicked handleStream_answers
  · rfl

end Wrappers

/-- A request for `/stream` that passes reaches `handleStream`, with a recorder in front of the
writer of the server. -/
theorem handler_reachesStream {w : ResponseWriter} {header : Header} {r : HttpRequest}
    (hpath : r.path = "/stream") (hmethod : r.method = "GET") (hpass : s.Passes env g r) :
    s.ReachesStream env (s.handler env) (.recorder w) g ⟨w, header, r⟩ := by
  -- from the outermost handler inwards
  apply reachesStream_withRecovery
  refine reachesStream_withCORS hmethod fun header => ?_
  refine reachesStream_withSecurityHeaders fun header => ?_
  refine reachesStream_withRequestID fun header => ?_
  apply reachesStream_withRequestTimeout hpath
  refine reachesStream_withConcurrencyLimit hpass.concurrency fun inFlight => ?_
  refine reachesStream_withRateLimit hpass.rate fun limiter => ?_
  apply reachesStream_instrument
  exact reachesStream_mux hpath hpass.auth

/-- No request for `/stream` that passes is streamed, whatever the configuration. The writer of
the server is a flusher, and `handleStream` would stream if it were given that writer. -/
theorem stream_never_served {r : HttpRequest} {header : Header} (hpath : r.path = "/stream")
    (hmethod : r.method = "GET") (hpass : s.Passes env g r) (hbus : s.bus = true)
    (hsubscribe : env.subscribeError = none) :
    (s.handleStream env g ⟨.server true, header, r⟩).1.Streams ∧
      ¬(s.handler env g ⟨.server true, header, r⟩).1.Streams ∧
      (s.handler env g ⟨.server true, header, r⟩).1.w = .recorder (.server true) ∧
      (s.handler env g ⟨.server true, header, r⟩).1.answer =
        .wrote 500 "streaming unsupported\n" := by
  refine ⟨handleStream_of_flusher hbus rfl hsubscribe, ?_⟩
  obtain ⟨g', header', heq⟩ := handler_reachesStream hpath hmethod hpass
  rw [heq, handleStream_of_not_flusher hbus rfl]
  refine ⟨?_, rfl, rfl⟩
  rintro ⟨hflusher, -⟩
  cases hflusher

/-- A server for which no variable is set, with a limiter that allows everything. -/
def unset : HttpServer Unit where
  settings := RunSettings.fromEnv ⟨fun _ => "", none⟩
  rate := ⟨fun _ _ => (), fun _ l => (true, l)⟩
  node := 1
  bus := true
  others := fun g e => (e.error "404 page not found" 404, g)

/-- `GET /stream`, without a token. -/
def getStream : HttpRequest where
  remoteAddr := "192.0.2.1:4711"
  method := "GET"
  authorization := ""
  call := ⟨"", ""⟩
  path := "/stream"
  origin := ""
  requestID := ""
  subject := ""
  consumer := ""

/-- Nothing ends the context, and the bus can be subscribed to. -/
def undisturbed : Conditions := ⟨"r1", 0, 0, [], ⟨0, 0, 0⟩, none, none⟩

/-- The first request passes. -/
theorem unset_passes : unset.Passes undisturbed (.new unset.settings 0) getStream where
  concurrency := by decide +kernel
  rate := by decide +kernel
  auth := by decide +kernel

/-- The first `GET /stream` is not streamed. -/
theorem stream_never_served_unset :
    let e : Exchange := ⟨.server true, fun _ => none, getStream⟩
    unset.Passes undisturbed (.new unset.settings 0) e.r ∧
      (unset.handleStream undisturbed (.new unset.settings 0) e).1.Streams ∧
      ¬(unset.handler undisturbed (.new unset.settings 0) e).1.Streams := by
  intro e
  obtain ⟨hstreams, hrefused, -, -⟩ := stream_never_served rfl rfl unset_passes rfl rfl
  exact ⟨unset_passes, hstreams, hrefused⟩

/-- With nothing configured, `GET /stream` passes, and is answered with the status 500. -/
theorem unset_stream_unsupported :
    let e : Exchange := ⟨.server true, fun _ => none, getStream⟩
    let reply := (unset.handler undisturbed (.new unset.settings 0) e).1
    unset.Passes undisturbed (.new unset.settings 0) e.r ∧ e.w.isFlusher = true ∧
      unset.bus = true ∧ undisturbed.subscribeError = none ∧
      reply.w.isFlusher = false ∧ reply.answer = .wrote 500 "streaming unsupported\n" := by
  intro e reply
  obtain ⟨g', header, heq⟩ := handler_reachesStream rfl rfl unset_passes
  have hreply : reply = Exchange.error ⟨.recorder (.server true), header, getStream⟩
      "streaming unsupported" 500 := heq.trans (handleStream_of_not_flusher rfl rfl)
  refine ⟨unset_passes, rfl, rfl, rfl, ?_, ?_⟩
  · rw [hreply]
    rfl
  · rw [hreply]
    rfl

end HttpServer

end ControlPlane
