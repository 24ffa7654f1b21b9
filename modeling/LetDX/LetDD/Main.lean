import LetDX.LetDD.Http.Server

/-! # The process of the proxy

A token that is configured protects every request, unless an option in error
keeps it from being read.
-/

namespace LetDX.LetDD

/-- The server that goes on to serve, if the process comes to that. The error
of `Collect` is ignored. -/
def run (echo : Echo) (commandLine : CommandLine) (environment : Environment) : Option Server := do
  let (config, _) ← Config.collect {} commandLine environment
  let client := newClient config.connectAddress config.supervisor
  let server := newServer client config
  if echo.starts server.middleware server.config.serverAddress then some server else none

/-! ## Passing the middleware -/

section Middleware

variable {echo : Echo} {ctx ctx' : Context}

theorem identifierExtractor_request {identifier : List U8}
    (hextracted : identifierExtractor echo ctx = some (identifier, ctx')) :
    ctx'.request = ctx.request := by
  simp only [identifierExtractor, Option.bind_eq_bind, Option.bind_eq_some_iff] at hextracted
  obtain ⟨_, _, _, _, heq⟩ := hextracted
  obtain ⟨_, rfl⟩ := Prod.mk.inj (Option.some.inj heq)
  rfl

theorem Middleware.pass_request {middleware : Middleware}
    (hpass : middleware.pass echo ctx = some ctx') : ctx'.request = ctx.request := by
  cases middleware with
  | requestLogger | contextTimeout => rw [← Option.some.inj hpass]
  | bodyLimit limit =>
      rw [pass, Option.ite_none_right_eq_some] at hpass
      rw [← Option.some.inj hpass.2]
  | keyAuth validator =>
      obtain ⟨_, _, rfl⟩ := Option.map_eq_some_iff.mp hpass
      rfl
  | rateLimiter config =>
      rw [pass] at hpass
      split at hpass
      · rw [← Option.some.inj hpass]
      · obtain ⟨⟨identifier, extracted⟩, hextracted, hallowed⟩ := Option.bind_eq_some_iff.mp hpass
        rw [← identifierExtractor_request hextracted]
        obtain ⟨_, heq⟩ := Option.ite_none_right_eq_some.mp hallowed
        rw [← Option.some.inj heq]

/-- What passes all the middleware has passed the key middleware. -/
theorem keyAuth_of_passes {installed : List Middleware} {validator : HttpRequest → List U8 → Bool}
    (hinstalled : Middleware.keyAuth validator ∈ installed)
    (hpasses : installed.foldlM (Middleware.pass echo) ctx = some ctx') :
    ∃ key ∈ echo.keys ctx.request, validator ctx.request key = true := by
  induction installed generalizing ctx with
  | nil => nomatch hinstalled
  | cons middleware rest ih =>
      rw [List.foldlM_cons] at hpasses
      obtain ⟨middle, hpass, hrest⟩ := Option.bind_eq_some_iff.mp hpasses
      rcases List.mem_cons.mp hinstalled with rfl | hlater
      · obtain ⟨key, hkey, _⟩ := Option.map_eq_some_iff.mp hpass
        exact ⟨key, echo.keyAuth_valid hkey⟩
      · have hfound := ih hlater hrest
        rwa [Middleware.pass_request hpass] at hfound

end Middleware

/-! ## The token -/

/-- Every request that a handler forwards has carried this token and was
authorized with it. -/
def TokenEnforced (commandLine : CommandLine) (environment : Environment) (token : List U8) :
    Prop :=
  ∀ (echo : Echo) (server : Server) (request : HttpRequest) (forwarded : Request),
    run echo commandLine environment = some server → server.serve echo request = some forwarded →
      ∃ key ∈ echo.keys request, key = token ∧ server.authorization request key = true

theorem Server.isMatches_of_authorization {s : Server} {request : HttpRequest} {key : List U8}
    (hauthorized : s.authorization request key = true) : s.config.isMatches key = true := by
  rw [authorization] at hauthorized
  cases hmatches : s.config.isMatches key with
  | true => rfl
  | false => simp [hmatches] at hauthorized

theorem Server.keyAuth_mem_middleware {s : Server} (htoken : s.config.serverToken ≠ []) :
    .keyAuth s.authorization ∈ s.middleware := by
  have hlength : s.config.serverToken.length > 0 := List.length_pos_of_ne_nil htoken
  simp [middleware, hlength]

/-- The keys in the headers of a request. -/
def bearerKeys (request : HttpRequest) : List (List U8) :=
  request.headers.filterMap fun (name, value) =>
    if name = "Authorization" ∧ (text "Bearer ".toList).isPrefixOf value then some (value.drop 7)
    else none

/-- The framework as it treats a transfer of one between the first two accounts
that is within all limits. -/
def transferEcho : Echo where
  starts _ _ := true
  route routes request :=
    routes.find? fun route => route.method = request.method ∧ route.path = request.path
  keys := bearerKeys
  keyAuth validator request := (bearerKeys request).find? validator
  bodyLimit _ _ := true
  allow _ _ _ := true
  pathParam _ _ := none
  bindPostAccount _ := none
  bindUpdateAccount _ := none
  bindPostTransfer _ := some ⟨some 0, some 1, some ⟨0, 1⟩⟩
  keyAuth_valid hfound := ⟨List.mem_of_find?_eq_some hfound, List.find?_some hfound⟩

def transferRequest (headers : List (String × List U8)) : HttpRequest where
  method := methodPost
  path := "/transfers"
  headers

/-- Without a token a server forwards what carries no key. -/
theorem Server.serve_keyless {s : Server} (htoken : s.config.serverToken = []) :
    s.serve transferEcho (transferRequest []) = some (.makeTransfer 0 0 1 ⟨0, 1⟩) := by
  have hroute : transferEcho.route routes (transferRequest []) =
      some ⟨methodPost, "/transfers", .postTransfer⟩ := by decide
  rw [serve, hroute, middleware, htoken]
  cases s.config.rateLimiter <;> rfl

/-- With a token it forwards only what was authorized with that token. -/
theorem Server.authorized_of_serve {s : Server} {echo : Echo} {request : HttpRequest}
    {forwarded : Request} (htoken : s.config.serverToken ≠ [])
    (hserve : s.serve echo request = some forwarded) :
    ∃ key ∈ echo.keys request, key = s.config.serverToken ∧
      s.authorization request key = true := by
  obtain ⟨route, _, hserve⟩ := Option.bind_eq_some_iff.mp hserve
  obtain ⟨ctx, hpasses, _⟩ := Option.bind_eq_some_iff.mp hserve
  obtain ⟨key, hkey, hauthorized⟩ := keyAuth_of_passes (keyAuth_mem_middleware htoken) hpasses
  have hmatches := Config.isMatches_iff.mp (isMatches_of_authorization hauthorized)
  exact ⟨key, hkey, hmatches.2, hauthorized⟩

/-- The server that `run` starts from this configuration. -/
def Config.server (config : Config) : Server :=
  newServer (newClient config.connectAddress config.supervisor) config

theorem run_eq_some_iff {echo : Echo} {commandLine : CommandLine} {environment : Environment}
    {server : Server} : run echo commandLine environment = some server ↔
      ∃ config error, Config.collect {} commandLine environment = some (config, error) ∧
        echo.starts config.server.middleware config.serverAddress = true ∧
        config.server = server := by
  simp only [run, Option.bind_eq_bind, Option.bind_eq_some_iff, Option.ite_none_right_eq_some,
    Prod.exists, Option.some.injEq]
  rfl

/-- A configured token is enforced if and only if neither of the two options
that `Collect` parses itself is in error. -/
theorem token_enforced_iff_valid {commandLine : CommandLine} {environment : Environment}
    {token : List U8} (hconfigured : environment.token = some token) (hnonempty : token ≠ []) :
    TokenEnforced commandLine environment token ↔ ¬commandLine.Invalid := by
  have hcollected := Config.collected commandLine environment
  constructor
  · intro henforced hinvalid
    generalize hcollect : Config.collect {} commandLine environment = outcome at hcollected
    cases hcollected with
    | panicked valid | done valid => exact valid hinvalid
    | @failed config error _ htoken =>
        have hrun : run transferEcho commandLine environment = some config.server :=
          run_eq_some_iff.mpr ⟨config, some error, hcollect, rfl, rfl⟩
        obtain ⟨key, hkey, _⟩ :=
          henforced transferEcho config.server _ _ hrun (Server.serve_keyless htoken)
        nomatch hkey
  · intro hvalid echo server request forwarded hrun hserve
    obtain ⟨config, error, hcollect, _, rfl⟩ := run_eq_some_iff.mp hrun
    rw [hcollect] at hcollected
    cases hcollected with
    | failed invalid => exact (hvalid invalid).elim
    | done _ htoken =>
        rw [hconfigured, Option.getD_some] at htoken
        subst htoken
        exact Server.authorized_of_serve hnonempty hserve

/-- A secret with all permissions. -/
def secretEnvironment : Environment where
  token := some (text "secret".toList)
  permissions := "read,write"

/-- A transfer that carries the secret is forwarded. -/
theorem token_enforced_iff_valid_default : ∃ server,
    run transferEcho {} secretEnvironment = some server ∧
      server.serve transferEcho
        (transferRequest [("Authorization", text "Bearer secret".toList)]) =
          some (.makeTransfer 0 0 1 ⟨0, 1⟩) ∧
      server.serve transferEcho (transferRequest []) = none ∧
      TokenEnforced {} secretEnvironment (text "secret".toList) := by
  have hvalid : ¬({} : CommandLine).Invalid := by
    rintro (⟨error, herror⟩ | ⟨error, herror⟩)
    · nomatch herror
    · nomatch herror
  have hrun : (run transferEcho {} secretEnvironment).isSome = true := by decide +kernel
  obtain ⟨server, hserver⟩ := Option.isSome_iff_exists.mp hrun
  have hserved : (run transferEcho {} secretEnvironment).map (fun server =>
      (server.serve transferEcho
        (transferRequest [("Authorization", text "Bearer secret".toList)]),
        server.serve transferEcho (transferRequest []))) =
      some (some (.makeTransfer 0 0 1 ⟨0, 1⟩), none) := by decide +kernel
  rw [hserver, Option.map_some] at hserved
  obtain ⟨hforwarded, hdenied⟩ := Prod.mk.inj (Option.some.inj hserved)
  exact ⟨server, hserver, hforwarded, hdenied,
    (token_enforced_iff_valid rfl (by decide)).mpr hvalid⟩

/-- With a rate limit that does not parse, the token is never read, and a
transfer that carries no key is forwarded. -/
theorem keyless_transfer_forwarded :
    ¬TokenEnforced { ratelimit := text "10".toList } secretEnvironment (text "secret".toList) ∧
      ∃ server,
        run transferEcho { ratelimit := text "10".toList } secretEnvironment = some server ∧
          transferEcho.keys (transferRequest []) = [] ∧
          server.serve transferEcho (transferRequest []) = some (.makeTransfer 0 0 1 ⟨0, 1⟩) := by
  have hrun : (run transferEcho { ratelimit := text "10".toList } secretEnvironment).map
      (fun server => server.serve transferEcho (transferRequest [])) =
        some (some (.makeTransfer 0 0 1 ⟨0, 1⟩)) := by decide +kernel
  obtain ⟨server, hserver, hforwarded⟩ := Option.map_eq_some_iff.mp hrun
  refine ⟨fun henforced => ?_, server, hserver, rfl, hforwarded⟩
  obtain ⟨key, hkey, _⟩ := henforced _ _ _ _ hserver hforwarded
  nomatch hkey

end LetDX.LetDD
