import LetDX.LetDD.Main

/-! # What must hold for a request to be forwarded

A handler forwards requests of one type, under one method and one path. With a
token the method decides which permission is needed, and a transfer is forwarded
only if the rate limiter has admitted it under the account that is to send.
-/

namespace LetDX.LetDD

open Bytes

/-- The framework chooses one of the routes, with the method of the request, and
a route without parameters only for its own path. -/
structure Echo.Routes (echo : Echo) : Prop where
  listed : ∀ {routes request route}, echo.route routes request = some route → route ∈ routes
  method : ∀ {routes request route}, echo.route routes request = some route →
    route.method = request.method
  path : ∀ {routes request route}, echo.route routes request = some route →
    ':' ∉ route.path.toList → route.path = request.path

section Routing

variable {s : Server} {echo : Echo} {request : HttpRequest} {forwarded : Request}

/-- A request that is forwarded has passed all the middleware, and its route
has a handler that forwards it. -/
theorem Server.exists_handler (hroutes : echo.Routes)
    (hserve : s.serve echo request = some forwarded) : ∃ ctx route,
      s.middleware.foldlM (Middleware.pass echo) { request } = some ctx ∧ route ∈ routes ∧
        route.method = request.method ∧
        (':' ∉ route.path.toList → route.path = request.path) ∧
        route.handler.forward echo ctx = some forwarded := by
  obtain ⟨route, hroute, hserve⟩ := Option.bind_eq_some_iff.mp hserve
  obtain ⟨ctx, hpasses, hforward⟩ := Option.bind_eq_some_iff.mp hserve
  exact ⟨ctx, route, hpasses, hroutes.listed hroute, hroutes.method hroute,
    hroutes.path hroute, hforward⟩

/-- A transfer is the one that was stored for it, if there is one. -/
theorem Handler.forward_transfer {ctx : Context}
    (hforward : Handler.postTransfer.forward echo ctx = some forwarded) :
    ∃ transfer fromID toID amount, (∀ stored, ctx.transfer = some stored → stored = transfer) ∧
      transfer.fromID = some fromID ∧ forwarded = .makeTransfer 0 fromID toID amount := by
  rw [forward] at hforward
  split at hforward
  next stored hstored =>
    simp only [Option.bind_eq_bind, Option.bind_eq_some_iff] at hforward
    obtain ⟨transfer, htransfer, fromID, hfrom, toID, _, amount, _, heq⟩ := hforward
    refine ⟨transfer, fromID, toID, amount, ?_, hfrom, (Option.some.inj heq).symm⟩
    intro stored' hstored'
    exact Option.some.inj (hstored'.symm.trans (hstored.trans htransfer))
  next hnone =>
    simp only [Option.bind_eq_bind, Option.bind_eq_some_iff] at hforward
    obtain ⟨transfer, _, fromID, hfrom, toID, _, amount, _, heq⟩ := hforward
    refine ⟨transfer, fromID, toID, amount, ?_, hfrom, (Option.some.inj heq).symm⟩
    intro stored' hstored'
    nomatch hnone.symm.trans hstored'

/-- What a handler forwards is of one type. -/
theorem Handler.forward_type {handler : Handler} {ctx : Context}
    (hforward : handler.forward echo ctx = some forwarded) :
    (forwarded.setID 0).isSome = (handler ≠ .getAccount : Bool) ∧
      ∀ walID fromID toID amount, forwarded = .makeTransfer walID fromID toID amount →
        handler = .postTransfer := by
  cases handler with
  | getAccount =>
      simp only [forward, Option.bind_eq_bind, Option.bind_eq_some_iff] at hforward
      obtain ⟨accountID, _, heq⟩ := hforward
      obtain rfl := Option.some.inj heq
      exact ⟨rfl, by rintro walID fromID toID amount ⟨⟩⟩
  | updateAccount =>
      simp only [forward, Option.bind_eq_bind, Option.bind_eq_some_iff] at hforward
      obtain ⟨accountID, _, body, _, flags, _, value, _, heq⟩ := hforward
      obtain rfl := Option.some.inj heq
      exact ⟨rfl, by rintro walID fromID toID amount ⟨⟩⟩
  | postAccount =>
      simp only [forward, Option.bind_eq_bind, Option.bind_eq_some_iff] at hforward
      obtain ⟨body, _, flags, _, value, _, credits, _, debits, _, heq⟩ := hforward
      obtain rfl := Option.some.inj heq
      exact ⟨rfl, by rintro walID fromID toID amount ⟨⟩⟩
  | postTransfer =>
      obtain ⟨transfer, fromID, toID, amount, _, _, rfl⟩ := forward_transfer hforward
      exact ⟨rfl, fun _ _ _ _ _ => rfl⟩

/-- The method of a request that would change the ledger. -/
theorem Server.method_of_serve (hroutes : echo.Routes)
    (hserve : s.serve echo request = some forwarded) (hmutating : (forwarded.setID 0).isSome) :
    request.method = methodPost ∨ request.method = methodPut := by
  obtain ⟨ctx, route, _, hmem, hmethod, _, hforward⟩ := exists_handler hroutes hserve
  rw [(Handler.forward_type hforward).1] at hmutating
  rw [← hmethod]
  simp only [routes, List.mem_cons, List.not_mem_nil, or_false] at hmem
  rcases hmem with rfl | rfl | rfl | rfl
  · simp at hmutating
  · exact .inr rfl
  · exact .inl rfl
  · exact .inl rfl

/-- With a token, what would change the ledger is forwarded only with the token
and the permission to write. -/
theorem Server.write_of_serve (hroutes : echo.Routes) (htoken : s.config.serverToken ≠ [])
    (hserve : s.serve echo request = some forwarded) (hmutating : (forwarded.setID 0).isSome) :
    s.config.serverToken ∈ echo.keys request ∧ s.config.isPermitted permissionWrite = true := by
  obtain ⟨key, hkey, hmatches, hauthorized⟩ := authorized_of_serve htoken hserve
  have hmethod := method_of_serve hroutes hserve hmutating
  have hget : request.method ≠ methodGet := by
    rcases hmethod with heq | heq
    · rw [heq]
      decide
    · rw [heq]
      decide
  refine ⟨hmatches ▸ hkey, ?_⟩
  rw [authorization, isMatches_of_authorization hauthorized] at hauthorized
  simpa [hget, hmethod] using hauthorized

end Routing

/-! ## The rate limiter -/

section Limiter

variable {s : Server} {echo : Echo} {request : HttpRequest} {ctx ctx' : Context}
  {limiter : RateLimiterMemoryStoreConfig}

/-- The transfer in a context has been admitted under its sender. -/
def Admitted (echo : Echo) (limiter : RateLimiterMemoryStoreConfig) (ctx : Context) : Prop :=
  ∃ transfer fromID, ctx.transfer = some transfer ∧ transfer.fromID = some fromID ∧
    echo.allow limiter ctx.request (decimal fromID.toNat) = true

theorem admitted_of_pass (hlimited : skipper ctx.request = false)
    (hpass : (Middleware.rateLimiter limiter).pass echo ctx = some ctx') :
    Admitted echo limiter ctx' := by
  rw [Middleware.pass, hlimited] at hpass
  obtain ⟨⟨identifier, extracted⟩, hextracted, hallowed⟩ := Option.bind_eq_some_iff.mp hpass
  obtain ⟨hallow, heq⟩ := Option.ite_none_right_eq_some.mp hallowed
  obtain rfl := Option.some.inj heq
  have hrequest := identifierExtractor_request hextracted
  simp only [identifierExtractor, Option.bind_eq_bind, Option.bind_eq_some_iff] at hextracted
  obtain ⟨transfer, _, fromID, hfrom, heq⟩ := hextracted
  obtain ⟨rfl, rfl⟩ := Prod.mk.inj (Option.some.inj heq)
  exact ⟨transfer, fromID, rfl, hfrom, hallow⟩

/-- What passes all the middleware has been admitted, if it is limited. -/
theorem Server.admitted_of_passes (hlimiter : s.config.rateLimiter = some limiter)
    (hlimited : skipper request = false)
    (hpasses : s.middleware.foldlM (Middleware.pass echo) { request } = some ctx') :
    Admitted echo limiter ctx' ∧ ctx'.request = request := by
  rw [middleware, hlimiter] at hpasses
  rw [List.foldlM_append, List.foldlM_append] at hpasses
  obtain ⟨limited, hlimits, hrest⟩ := Option.bind_eq_some_iff.mp hpasses
  obtain ⟨earlier, hearlier, hlimits⟩ := Option.bind_eq_some_iff.mp hlimits
  have hrequest {installed : List Middleware} {before after : Context}
      (hbefore : installed.foldlM (Middleware.pass echo) before = some after) :
      after.request = before.request := by
    induction installed generalizing before with
    | nil => rw [Option.some.inj hbefore]
    | cons middleware rest ih =>
        obtain ⟨middle, hpass, hrest⟩ := Option.bind_eq_some_iff.mp hbefore
        rw [ih hrest, Middleware.pass_request hpass]
  have hsame : earlier.request = request := hrequest hearlier
  obtain ⟨after, hpass, heq⟩ := Option.bind_eq_some_iff.mp hlimits
  obtain rfl : after = limited := Option.some.inj heq
  obtain rfl : after = ctx' := Option.some.inj hrest
  refine ⟨admitted_of_pass ?_ hpass, ?_⟩
  · rw [hsame]
    exact hlimited
  · rw [Middleware.pass_request hpass, hsame]

/-- A transfer is forwarded only if it was admitted under its own sender. -/
theorem Server.admitted_of_serve (hroutes : echo.Routes)
    (hlimiter : s.config.rateLimiter = some limiter) {walID fromID toID : U64} {amount : Uint128}
    (hserve : s.serve echo request = some (.makeTransfer walID fromID toID amount)) :
    echo.allow limiter request (decimal fromID.toNat) = true := by
  obtain ⟨ctx, route, hpasses, hmem, hmethod, hpath, hforward⟩ := exists_handler hroutes hserve
  have hhandler := (Handler.forward_type hforward).2 walID fromID toID amount rfl
  obtain rfl : route = ⟨methodPost, "/transfers", .postTransfer⟩ := by
    simp only [routes, List.mem_cons, List.not_mem_nil, or_false] at hmem
    rcases hmem with rfl | rfl | rfl | rfl
    · nomatch hhandler
    · nomatch hhandler
    · nomatch hhandler
    · rfl
  have hlimited : skipper request = false := by
    rw [skipper, ← hmethod, ← hpath (by decide)]
    rfl
  obtain ⟨⟨transfer, sender, htransfer, hsender, hallow⟩, hrequest⟩ :=
    admitted_of_passes hlimiter hlimited hpasses
  rw [hrequest] at hallow
  obtain ⟨forwarded, fromID', toID', amount', hstored, hfrom, heq⟩ :=
    Handler.forward_transfer hforward
  obtain ⟨_, rfl, _, _⟩ := Request.makeTransfer.inj heq
  obtain rfl := hstored transfer htransfer
  obtain rfl := Option.some.inj (hsender.symm.trans hfrom)
  exact hallow

end Limiter

end LetDX.LetDD
