import ControlPlane.App.Validation
import ControlPlane.Config.Durations
import ControlPlane.Http.Address

/-!
# Bearer tokens

Every route but the probes is wrapped in `secure`, which decides on the scope of the route
whether the request reaches the handler. A scope belongs to a path, while `handleEvents`
chooses between the two handlers of `/events` by the method: the scope of that path admits
the tokens that may read. A token may expire; the expirations are entries `token=second`,
which are cut at the first equals sign.
-/

namespace ControlPlane

open Text

/-- `authFailureGuard`. A missing entry of `failures` counts as zero. -/
structure AuthGuard where
  maxFailures : ℤ
  blockFor : Duration
  failures : String → ℤ
  blockedTill : String → Option Time

def newAuthFailureGuard (maxFailures : ℤ) (blockFor : Duration) : AuthGuard where
  maxFailures := max 1 maxFailures
  blockFor := blockFor
  failures := fun _ => 0
  blockedTill := fun _ => none

namespace AuthGuard

variable (g : AuthGuard)

/-- Forget what is known about an address. -/
def clear (ip : String) : AuthGuard :=
  { g with
    failures := Function.update g.failures ip 0
    blockedTill := Function.update g.blockedTill ip none }

def isBlocked (now : Time) (ip : String) : Bool × AuthGuard :=
  match g.blockedTill ip with
  | none => (false, g)
  | some till => if till < now then (false, g.clear ip) else (true, g)

def failure (now : Time) (ip : String) : AuthGuard :=
  let failures := Function.update g.failures ip (g.failures ip + 1)
  if g.maxFailures ≤ failures ip then
    { g with failures, blockedTill := Function.update g.blockedTill ip (some (now + g.blockFor)) }
  else { g with failures }

def success (ip : String) : AuthGuard := g.clear ip

end AuthGuard

/-- `bearerToken`. The scheme is compared in lower case; it has letters of ASCII only. -/
def bearerToken (h : String) : String :=
  if (h.toList.take 7).map Char.toLower = "bearer ".toList then
    String.ofList (trimSpace (h.toList.drop 7))
  else ""

def contains (list : List String) (value : String) : Bool :=
  list.any fun v => trimSpace v.toList = value.toList

/-- The scopes with which the routes are registered. -/
inductive Scope
  | admin
  | read
  | rw
  deriving DecidableEq

/-- What is read of a request. -/
structure Request where
  remoteAddr : String
  method : String
  authorization : String
  call : PublishCall

/-- The readings of the clock during `secure`: in `IsBlocked`, at the check of the expiry and
in `Failure`. -/
structure Clock where
  arrived : Time
  checked : Time
  refused : Time

/-- The wrapped handler runs, or the request is refused with a status and a text. -/
inductive Verdict
  | served
  | refused (status : ℕ) (text : String)
  deriving DecidableEq

def Verdict.blocked : Verdict := .refused 429 "temporarily blocked due to auth failures"

/-- `Time.Unix`. -/
def unix (t : Time) : ℤ := t / second

namespace ServerSettings

variable (c : ServerSettings)

/-- The guard that `New` creates. -/
def authGuard : AuthGuard :=
  newAuthFailureGuard (max 1 c.authFailureMaxAttempts) c.authBlock.duration

/-- Some token is configured. -/
def HasTokens : Prop :=
  ¬(c.apiBearerToken = "" ∧ c.apiAdminTokens = [] ∧ c.apiPublishTokens = [] ∧ c.apiReadTokens = [])

def expired (token : String) (now : Time) : Bool :=
  match c.apiTokenExpirations token with
  | some exp => exp < unix now
  | none => false

/-- The token is the global one. -/
def global (token : String) : Bool := c.apiBearerToken ≠ "" ∧ token = c.apiBearerToken

/-- The token is on one of the lists of the scope. -/
def allowed (token : String) : Scope → Bool
  | .admin => contains c.apiAdminTokens token
  | .read => contains c.apiReadTokens token || contains c.apiAdminTokens token
  | .rw => contains c.apiPublishTokens token || contains c.apiReadTokens token ||
      contains c.apiAdminTokens token

def secure (scope : Scope) (r : Request) (clock : Clock) (g : AuthGuard) : Verdict × AuthGuard :=
  if c.disableAPITokenAuth then (.served, g)
  else
    let ip := clientIP r.remoteAddr
    match g.isBlocked clock.arrived ip with
    | (true, g) => (.blocked, g)
    | (false, g) =>
      let token := bearerToken r.authorization
      if token = "" ∧ c.apiBearerToken = "" ∧ c.apiAdminTokens = [] ∧ c.apiPublishTokens = [] ∧
          c.apiReadTokens = [] then (.served, g)
      else if token = "" then (.refused 401 "missing bearer token", g.failure clock.refused ip)
      else if c.expired token clock.checked then
        (.refused 401 "token expired", g.failure clock.refused ip)
      else if c.global token then (.served, g.success ip)
      else if c.allowed token scope then (.served, g.success ip)
      else (.refused 403 "forbidden", g.failure clock.refused ip)

/-- The refusal of a request from an address that is not blocked, if it is refused. -/
def refusal (scope : Scope) (r : Request) (clock : Clock) : Option (ℕ × String) :=
  let token := bearerToken r.authorization
  if token = "" then some (401, "missing bearer token")
  else if c.expired token clock.checked then some (401, "token expired")
  else if c.global token ∨ c.allowed token scope then none
  else some (403, "forbidden")

end ServerSettings

/-- The routes that `Run` wraps in `secure`. -/
inductive Route
  | leaderz
  | events
  | deadletters
  | replay
  | outboxRelay
  | stream
  deriving DecidableEq

/-- The handlers behind the routes. -/
inductive Handler
  | leader
  | publishEvent
  | listEvents
  | methodNotAllowed
  | deadLetters
  | replayDeadLetter
  | outboxRelayAdmin
  | stream
  deriving DecidableEq

namespace Route

def scope : Route → Scope
  | leaderz | deadletters | replay | outboxRelay => .admin
  | events => .rw
  | stream => .read

/-- The handler that runs for a method; only `handleEvents` chooses by it. -/
def handler (method : String) : Route → Handler
  | leaderz => .leader
  | events =>
      if method = "POST" then .publishEvent
      else if method = "GET" then .listEvents
      else .methodNotAllowed
  | deadletters => .deadLetters
  | replay => .replayDeadLetter
  | outboxRelay => .outboxRelayAdmin
  | stream => .stream

end Route

namespace ServerSettings

variable (c : ServerSettings)

/-- The handler that a request reaches. -/
def runs (route : Route) (r : Request) (clock : Clock) (g : AuthGuard) : Option Handler :=
  match (c.secure route.scope r clock g).1 with
  | .served => some (route.handler r.method)
  | .refused .. => none

/-- The request whose event is appended and published. -/
def published (front : Frontend) (route : Route) (r : Request) (clock : Clock) (g : AuthGuard) :
    Option PublishRequest :=
  match c.runs route r clock g with
  | some .publishEvent => (front.handlePublishEvent r.call).toOption
  | _ => none

section Spec

variable {c} {scope : Scope} {r : Request} {clock : Clock} {g : AuthGuard}

/-- The five exits of `secure` where tokens are checked: a blocked request, a refusal that is
counted, and an acceptance that clears the count. -/
theorem secure_eq (hauth : c.disableAPITokenAuth = false) (htokens : c.HasTokens) :
    c.secure scope r clock g =
      match g.isBlocked clock.arrived (clientIP r.remoteAddr) with
      | (true, g) => (.blocked, g)
      | (false, g) =>
        match c.refusal scope r clock with
        | some (status, text) =>
            (.refused status text, g.failure clock.refused (clientIP r.remoteAddr))
        | none => (.served, g.success (clientIP r.remoteAddr)) := by
  unfold secure refusal
  rw [if_neg (by simp [hauth])]
  dsimp only
  split
  · rfl
  · rw [if_neg fun h => htokens h.2]
    split_ifs <;> simp_all

/-- A request is served if its address is not blocked and its token is not refused. -/
theorem secure_eq_served (hauth : c.disableAPITokenAuth = false) (htokens : c.HasTokens) :
    (c.secure scope r clock g).1 = .served ↔
      (g.isBlocked clock.arrived (clientIP r.remoteAddr)).1 = false ∧
        c.refusal scope r clock = none := by
  rw [secure_eq hauth htokens]
  rcases g.isBlocked clock.arrived (clientIP r.remoteAddr) with ⟨_ | _, g'⟩
  · cases c.refusal scope r clock <;> simp
  · simp [Verdict.blocked]

theorem refusal_eq_none : c.refusal scope r clock = none ↔
    bearerToken r.authorization ≠ "" ∧
      c.expired (bearerToken r.authorization) clock.checked = false ∧
      (c.global (bearerToken r.authorization) = true ∨
        c.allowed (bearerToken r.authorization) scope = true) := by
  unfold refusal
  dsimp only
  split_ifs <;> simp_all

/-- A handler runs if the request is served. -/
theorem runs_eq_some {route : Route} {h : Handler} : c.runs route r clock g = some h ↔
    (c.secure route.scope r clock g).1 = .served ∧ route.handler r.method = h := by
  unfold runs
  cases (c.secure route.scope r clock g).1 <;> simp

end Spec

section LeastPrivilege

variable (route : Route) (r : Request) (clock : Clock) (g : AuthGuard)

/-- The tokens that may run a handler, by the lists they are on. -/
def Entitled (token : String) : Handler → Prop
  | .publishEvent => c.global token ∨ contains c.apiPublishTokens token ∨
      contains c.apiAdminTokens token
  | .leader | .deadLetters | .replayDeadLetter | .outboxRelayAdmin =>
      c.global token ∨ contains c.apiAdminTokens token
  | .stream => c.global token ∨ contains c.apiReadTokens token ∨ contains c.apiAdminTokens token
  | .listEvents | .methodNotAllowed => True

/-- The handler runs only for an unexpired token that may run it, and nothing is published for
a token that may not publish. -/
structure LeastPrivilege : Prop where
  handler : ∀ h, c.runs route r clock g = some h →
    bearerToken r.authorization ≠ "" ∧
      c.expired (bearerToken r.authorization) clock.checked = false ∧
      c.Entitled (bearerToken r.authorization) h
  publish : ¬c.Entitled (bearerToken r.authorization) .publishEvent →
    ∀ front, c.published front route r clock g = none

/-- A request to publish with an unexpired token that is listed for reading and may not
publish, from an address that is not blocked. -/
structure ReadTokenPosts : Prop where
  route : route = .events
  method : r.method = "POST"
  unblocked : (g.isBlocked clock.arrived (clientIP r.remoteAddr)).1 = false
  token : bearerToken r.authorization ≠ ""
  unexpired : c.expired (bearerToken r.authorization) clock.checked = false
  listed : contains c.apiReadTokens (bearerToken r.authorization) = true
  unentitled : ¬c.Entitled (bearerToken r.authorization) .publishEvent

variable {c route r clock g}

/-- Outside of that case the scope of the route admits only tokens that may run the handler. -/
theorem entitled_of_allowed
    (hposts : route = .events → r.method = "POST" →
      contains c.apiReadTokens (bearerToken r.authorization) = true →
        c.Entitled (bearerToken r.authorization) .publishEvent)
    (h : c.global (bearerToken r.authorization) = true ∨
      c.allowed (bearerToken r.authorization) route.scope = true) :
    c.Entitled (bearerToken r.authorization) (route.handler r.method) := by
  generalize bearerToken r.authorization = token at *
  cases route with
  | leaderz => exact h
  | deadletters => exact h
  | replay => exact h
  | outboxRelay => exact h
  | stream => simpa [allowed, Route.scope, Entitled, Route.handler] using h
  | events =>
    simp only [Route.handler]
    split_ifs with hpost hget
    · simp only [allowed, Route.scope, Bool.or_eq_true] at h
      rcases h with hglobal | (hpublish | hread) | hadmin
      · exact Or.inl hglobal
      · exact Or.inr (Or.inl hpublish)
      · exact hposts rfl hpost hread
      · exact Or.inr (Or.inr hadmin)
    · trivial
    · trivial

/-- Handlers run for the tokens of their lists only, exactly if the request is not one to
publish with a token that is listed for reading. -/
theorem least_privilege_iff (hauth : c.disableAPITokenAuth = false) (htokens : c.HasTokens) :
    c.LeastPrivilege route r clock g ↔ ¬c.ReadTokenPosts route r clock g := by
  constructor
  · intro hleast hposts
    have hrefusal : c.refusal route.scope r clock = none := by
      refine refusal_eq_none.mpr ⟨hposts.token, hposts.unexpired, Or.inr ?_⟩
      rw [hposts.route]
      simp [allowed, Route.scope, hposts.listed]
    have hserved := (secure_eq_served hauth htokens).mpr ⟨hposts.unblocked, hrefusal⟩
    have hhandler : route.handler r.method = .publishEvent := by
      rw [hposts.route]
      simp [Route.handler, hposts.method]
    exact hposts.unentitled (hleast.handler _ (runs_eq_some.mpr ⟨hserved, hhandler⟩)).2.2
  · intro hposts
    have hhandler : ∀ h, c.runs route r clock g = some h →
        bearerToken r.authorization ≠ "" ∧
          c.expired (bearerToken r.authorization) clock.checked = false ∧
          c.Entitled (bearerToken r.authorization) h := by
      intro h hruns
      obtain ⟨hserved, rfl⟩ := runs_eq_some.mp hruns
      obtain ⟨hunblocked, hrefusal⟩ := (secure_eq_served hauth htokens).mp hserved
      obtain ⟨htoken, hunexpired, hallowed⟩ := refusal_eq_none.mp hrefusal
      refine ⟨htoken, hunexpired, entitled_of_allowed ?_ hallowed⟩
      intro hroute hmethod hlisted
      by_contra hunentitled
      exact hposts ⟨hroute, hmethod, hunblocked, htoken, hunexpired, hlisted, hunentitled⟩
    refine ⟨hhandler, ?_⟩
    intro hunentitled front
    unfold published
    split
    · rename_i hruns
      exact absurd (hhandler _ hruns).2.2 hunentitled
    · rfl

end LeastPrivilege

/-- One token that reads and one that publishes, on a server for orders. -/
def aclEnv : Environment where
  getenv := fun key =>
    if key = "API_ACL_READ_TOKENS" then "reader"
    else if key = "API_ACL_PUBLISH_TOKENS" then "writer"
    else orderEnv.getenv key
  hostname := none

/-- A request of a client to publish an order with this token. -/
def orderRequest (token : String) : Request where
  remoteAddr := "10.0.0.7:41000"
  method := "POST"
  authorization := "Bearer " ++ token
  call := orderCall

/-- The publisher may publish, and nobody else comes in this way. -/
theorem least_privilege_iff_writer :
    (fromEnv aclEnv).disableAPITokenAuth = false ∧ (fromEnv aclEnv).HasTokens ∧
      (fromEnv aclEnv).LeastPrivilege .events (orderRequest "writer") ⟨0, 0, 0⟩
        (fromEnv aclEnv).authGuard := by
  have hauth : (fromEnv aclEnv).disableAPITokenAuth = false := by decide +kernel
  have htokens : (fromEnv aclEnv).HasTokens := by
    unfold HasTokens
    decide +kernel
  refine ⟨hauth, htokens, (least_privilege_iff hauth htokens).mpr ?_⟩
  intro hposts
  have hread : contains (fromEnv aclEnv).apiReadTokens
      (bearerToken (orderRequest "writer").authorization) = false := by decide +kernel
  exact absurd (hread.symm.trans hposts.listed) (by decide)

/-- A token that is only listed for reading publishes an order. -/
theorem read_token_publishes :
    contains (fromEnv aclEnv).apiReadTokens "reader" = true ∧
      ¬(fromEnv aclEnv).Entitled "reader" .publishEvent ∧
      (fromEnv aclEnv).runs .events (orderRequest "reader") ⟨0, 0, 0⟩ (fromEnv aclEnv).authGuard =
        some .publishEvent ∧
      (∃ front req, front.settings = (fromEnv aclEnv).toSettings ∧
        (fromEnv aclEnv).published front .events (orderRequest "reader") ⟨0, 0, 0⟩
          (fromEnv aclEnv).authGuard = some req ∧ req.payload = orderPayload) ∧
      ¬(fromEnv aclEnv).LeastPrivilege .events (orderRequest "reader") ⟨0, 0, 0⟩
        (fromEnv aclEnv).authGuard := by
  have hentitled : ¬(fromEnv aclEnv).Entitled "reader" .publishEvent := by
    unfold Entitled
    decide +kernel
  have hruns : (fromEnv aclEnv).runs .events (orderRequest "reader") ⟨0, 0, 0⟩
      (fromEnv aclEnv).authGuard = some .publishEvent := by decide +kernel
  have htoken : bearerToken (orderRequest "reader").authorization = "reader" := by decide +kernel
  refine ⟨by decide +kernel, hentitled, hruns, ?_, ?_⟩
  · refine ⟨⟨(fromEnv aclEnv).toSettings, true, true, none, fun _ => true⟩,
      { stream := "default", subject := "events.default", eventType := "order.created"
        schemaVersion := 2, idempotencyKey := "order-A1001-v1", payload := orderPayload },
      rfl, by decide +kernel, rfl⟩
  · intro hleast
    have hpublish := (hleast.handler _ hruns).2.2
    rw [htoken] at hpublish
    exact hentitled hpublish

end ServerSettings

end ControlPlane
