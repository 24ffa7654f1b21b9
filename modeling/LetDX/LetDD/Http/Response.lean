import LetDX.LetDD.Http.Server

/-! # Responses of the HTTP server

What a handler writes for a request. An error that a handler or a middleware
returns is answered by the framework.
-/

namespace LetDX.LetDD

def statusOK : Nat := 200
def statusCreated : Nat := 201
def statusNoContent : Nat := 204
def statusBadRequest : Nat := 400
def statusTooManyRequests : Nat := 429

/-! ## Flags -/

def uint8ToFlags (flags : U8) : Flags :=
  let result : Flags := []
  let result := if flags &&& flagCanSend ≠ 0 then result ++ ["send"] else result
  let result := if flags &&& flagCanReceive ≠ 0 then result ++ ["receive"] else result
  if flags &&& flagCanDebt ≠ 0 then result ++ ["debt"] else result

/-- The flag with this name. -/
def flagNamed (name : String) : Option U8 :=
  if name = "send" then some flagCanSend
  else if name = "receive" then some flagCanReceive
  else if name = "debt" then some flagCanDebt
  else none

theorem Flags.toUint8_eq_foldlM (f : Flags) :
    f.toUint8 =
      f.foldlM (fun result name => (flagNamed name).map fun flag => result ||| flag) flagNone := by
  rw [toUint8]
  congr 1
  funext result name
  unfold flagNamed
  split_ifs
  all_goals rfl

theorem flagNamed_cases {name : String} {flag : U8} (hnamed : flagNamed name = some flag) :
    name = "send" ∧ flag = flagCanSend ∨ name = "receive" ∧ flag = flagCanReceive ∨
      name = "debt" ∧ flag = flagCanDebt := by
  unfold flagNamed at hnamed
  split_ifs at hnamed with hsend hreceive hdebt
  · exact .inl ⟨hsend, (Option.some.inj hnamed).symm⟩
  · exact .inr (.inl ⟨hreceive, (Option.some.inj hnamed).symm⟩)
  · exact .inr (.inr ⟨hdebt, (Option.some.inj hnamed).symm⟩)

theorem mem_uint8ToFlags {name : String} {flags : U8} :
    name ∈ uint8ToFlags flags ↔ ∃ flag, flagNamed name = some flag ∧ flags &&& flag ≠ 0 := by
  constructor
  · intro hmem
    have hname : name = "send" ∧ flags &&& flagCanSend ≠ 0 ∨
        name = "receive" ∧ flags &&& flagCanReceive ≠ 0 ∨
        name = "debt" ∧ flags &&& flagCanDebt ≠ 0 := by
      unfold uint8ToFlags at hmem
      split_ifs at hmem
      all_goals simp_all
    rcases hname with ⟨rfl, hset⟩ | ⟨rfl, hset⟩ | ⟨rfl, hset⟩
    · exact ⟨flagCanSend, rfl, hset⟩
    · exact ⟨flagCanReceive, rfl, hset⟩
    · exact ⟨flagCanDebt, rfl, hset⟩
  · rintro ⟨flag, hnamed, hset⟩
    rcases flagNamed_cases hnamed with ⟨rfl, rfl⟩ | ⟨rfl, rfl⟩ | ⟨rfl, rfl⟩
    all_goals
      simp only [uint8ToFlags, if_pos hset]
      split_ifs
      all_goals simp

/-- Setting one flag leaves the others. -/
theorem mem_uint8ToFlags_or {name added : String} {flags flag : U8}
    (hadded : flagNamed added = some flag) :
    name ∈ uint8ToFlags (flags ||| flag) ↔ name ∈ uint8ToFlags flags ∨ name = added := by
  have hset (other : U8) : (∃ name, flagNamed name = some other) →
      ((flags ||| flag) &&& other ≠ 0 ↔ flags &&& other ≠ 0 ∨ other = flag) := by
    rintro ⟨name, hnamed⟩
    rcases flagNamed_cases hnamed with ⟨_, rfl⟩ | ⟨_, rfl⟩ | ⟨_, rfl⟩
    all_goals
      rcases flagNamed_cases hadded with ⟨_, rfl⟩ | ⟨_, rfl⟩ | ⟨_, rfl⟩
      all_goals
        revert flags
        decide +kernel
  rw [mem_uint8ToFlags, mem_uint8ToFlags]
  constructor
  · rintro ⟨other, hnamed, hbit⟩
    rcases (hset other ⟨name, hnamed⟩).mp hbit with hbefore | rfl
    · exact .inl ⟨other, hnamed, hbefore⟩
    · right
      rcases flagNamed_cases hnamed with ⟨rfl, rfl⟩ | ⟨rfl, rfl⟩ | ⟨rfl, rfl⟩
      all_goals
        rcases flagNamed_cases hadded with ⟨rfl, heq⟩ | ⟨rfl, heq⟩ | ⟨rfl, heq⟩
        all_goals first | rfl | exact absurd heq (by decide)
  · rintro (⟨other, hnamed, hbefore⟩ | rfl)
    · exact ⟨other, hnamed, (hset other ⟨name, hnamed⟩).mpr (.inl hbefore)⟩
    · exact ⟨flag, hadded, (hset flag ⟨name, hadded⟩).mpr (.inr rfl)⟩

/-- The flags that have names. -/
def flagsNamed : U8 :=
  flagCanSend ||| flagCanReceive ||| flagCanDebt

theorem or_flagsNamed {name : String} {flags flag : U8} (hadded : flagNamed name = some flag)
    (hflags : flags &&& flagsNamed = flags) : (flags ||| flag) &&& flagsNamed = flags ||| flag := by
  rcases flagNamed_cases hadded with ⟨_, rfl⟩ | ⟨_, rfl⟩ | ⟨_, rfl⟩
  all_goals
    revert flags
    decide +kernel

theorem toUint8_uint8ToFlags (flags : U8) :
    (uint8ToFlags flags).toUint8 = some (flags &&& flagsNamed) := by
  revert flags
  decide +kernel

theorem nodup_uint8ToFlags (flags : U8) : (uint8ToFlags flags).Nodup := by
  revert flags
  decide +kernel

/-- Reading more names sets their flags and no others. -/
theorem foldlM_flags {rest : Flags} {start flags : U8}
    (hrest : rest.foldlM (fun result name =>
      (flagNamed name).map fun flag => result ||| flag) start = some flags)
    (hstart : start &&& flagsNamed = start) :
    flags &&& flagsNamed = flags ∧
      ∀ name, name ∈ uint8ToFlags flags ↔ name ∈ uint8ToFlags start ∨ name ∈ rest := by
  induction rest generalizing start with
  | nil =>
      obtain rfl := Option.some.inj hrest
      exact ⟨hstart, by simp⟩
  | cons added rest ih =>
      obtain ⟨middle, hmiddle, hrest⟩ := Option.bind_eq_some_iff.mp hrest
      obtain ⟨flag, hadded, rfl⟩ := Option.map_eq_some_iff.mp hmiddle
      obtain ⟨hflags, hnames⟩ := ih hrest (or_flagsNamed hadded hstart)
      refine ⟨hflags, fun name => ?_⟩
      rw [hnames, mem_uint8ToFlags_or hadded, List.mem_cons, or_assoc]

/-- The flags that a request asks for are those that are shown of the account,
each once, and they would be asked for by the same byte again. -/
theorem flags_read_back {f : Flags} {flags : U8} (hasked : f.toUint8 = some flags) :
    (uint8ToFlags flags).toUint8 = some flags ∧ (uint8ToFlags flags).Nodup ∧
      ∀ name, name ∈ uint8ToFlags flags ↔ name ∈ f := by
  rw [Flags.toUint8_eq_foldlM] at hasked
  obtain ⟨hnamed, hnames⟩ := foldlM_flags hasked (by decide)
  refine ⟨?_, nodup_uint8ToFlags flags, fun name => ?_⟩
  · rw [toUint8_uint8ToFlags, hnamed]
  · rw [hnames, show uint8ToFlags flagNone = [] by decide]
    simp

theorem flags_read_back_twice : (uint8ToFlags 5).toUint8 = some 5 ∧ (uint8ToFlags 5).Nodup ∧
    ∀ name, name ∈ uint8ToFlags 5 ↔ name ∈ ["debt", "send", "debt"] :=
  flags_read_back (by decide)

/-! ## What is written -/

/-- The documents that are sent as JSON. -/
inductive Body
  | account (credits debits : Uint128) (flags : Flags)
  | id (accountID : U64)
  | error (message : String) (code : U16)
  | message (message : String)
  deriving DecidableEq, Repr

structure Written where
  status : Nat
  body : Option Body := none
  deriving DecidableEq, Repr

/-- The types that implement the interface `Response`. -/
inductive HttpResponse
  | getAccount (credits debits : Uint128) (flags : Flags)
  | postAccount (accountID : U64)
  | ok
  | error (message : String) (code : U16)
  deriving DecidableEq, Repr

def HttpResponse.toJSON : HttpResponse → Written
  | getAccount credits debits flags => ⟨statusOK, some (.account credits debits flags)⟩
  | postAccount accountID => ⟨statusCreated, some (.id accountID)⟩
  | ok => ⟨statusNoContent, none⟩
  | error message code => ⟨statusBadRequest, some (.error message code)⟩

/-- What is returned to the framework instead. -/
inductive HttpError
  | middleware
  | notFound
  | pathParam
  | invalidBody
  | communicate (error : CommunicateError)
  | unexpected (message : List U8)
  deriving DecidableEq, Repr

abbrev Answer := Except HttpError Written

def toResponse (r : Response) : Except HttpError HttpResponse :=
  match r with
  | .getAccount credits debits flags => .ok (.getAccount credits debits (uint8ToFlags flags))
  | .addAccount accountID => .ok (.postAccount accountID)
  | .ok => .ok .ok
  | .error code => .ok (.error "Failed Request" code)
  | .magic | .countDatabase .. =>
      .error (.unexpected (text "unexpected response: ".toList ++ r.kind.name))

/-- The rest of `Communicate` once the client has returned. -/
def answerTo (result : Except CommunicateError Response) : Answer := do
  let clientResponse ← result.mapError .communicate
  let serverResponse ← toResponse clientResponse
  return serverResponse.toJSON

/-! ## What is not forwarded -/

/-- What a middleware answers to a request that it does not let through. -/
def Middleware.deny (echo : Echo) (ctx : Context) : Middleware → Answer
  | rateLimiter _ =>
      match identifierExtractor echo ctx with
      | none => .ok ⟨statusBadRequest, some (.message "Invalid Request")⟩
      | some _ => .ok ⟨statusTooManyRequests, some (.message "Need to Cooldown")⟩
  | requestLogger | bodyLimit _ | keyAuth _ | contextTimeout _ => .error .middleware

/-- The value, or what is answered without it. -/
def orAnswer {α : Type} (answer : Answer) : Option α → Except Answer α
  | some value => .ok value
  | none => .error answer

@[simp] theorem toOption_orAnswer {α : Type} (answer : Answer) (value : Option α) :
    (orAnswer answer value).toOption = value := by
  cases value <;> rfl

def invalidFlags : Answer :=
  .ok ⟨statusBadRequest, some (.message "Invalid Flags")⟩

namespace Handler

/-- The request that a handler forwards, or what it answers without. -/
def prepare (echo : Echo) (ctx : Context) : Handler → Except Answer Request
  | getAccount => do
      let accountID ← orAnswer (.error .pathParam) (echo.pathParam ctx.request "id")
      return .getAccount accountID
  | updateAccount => do
      let accountID ← orAnswer (.error .pathParam) (echo.pathParam ctx.request "id")
      let updateAccount ← orAnswer (.error .invalidBody)
        (bindAndValidate echo.bindUpdateAccount UpdateAccountRequest.validate ctx.request)
      let flags ← orAnswer invalidFlags (updateAccount.flags.bind Flags.toUint8)
      return .updateAccount 0 accountID flags
  | postAccount => do
      let postAccount ← orAnswer (.error .invalidBody)
        (bindAndValidate echo.bindPostAccount PostAccountRequest.validate ctx.request)
      let flags ← orAnswer invalidFlags (postAccount.flags.bind Flags.toUint8)
      let credits ← orAnswer (.error .invalidBody) postAccount.credits
      let debits ← orAnswer (.error .invalidBody) postAccount.debits
      return .addAccount 0 credits debits flags
  | postTransfer => do
      let transfer : PostTransferRequest ←
        match ctx.transfer with
        | some transfer => .ok transfer
        | none =>
            orAnswer (.error .invalidBody)
              (bindAndValidate echo.bindPostTransfer PostTransferRequest.validate ctx.request)
      let fromID ← orAnswer (.error .invalidBody) transfer.fromID
      let toID ← orAnswer (.error .invalidBody) transfer.toID
      let amount ← orAnswer (.error .invalidBody) transfer.amount
      return .makeTransfer 0 fromID toID amount

end Handler

/-- Whether a request goes on, or what is answered. -/
def Middleware.proceed (echo : Echo) (ctx : Context) (middleware : Middleware) :
    Except Answer Context :=
  orAnswer (middleware.deny echo ctx) (middleware.pass echo ctx)

/-- The request that the server forwards for this one, or what it answers without. -/
def Server.prepare (s : Server) (echo : Echo) (request : HttpRequest) : Except Answer Request := do
  let ctx ← s.middleware.foldlM (Middleware.proceed echo) { request }
  let route ← orAnswer (.error .notFound) (echo.route routes request)
  route.handler.prepare echo ctx

/-! ## Agreement -/

section Agreement

variable {α β : Type} {echo : Echo} {ctx : Context}

theorem toOption_bind (value : Except Answer α) (f : α → Except Answer β) :
    (value >>= f).toOption = value.toOption.bind fun input => (f input).toOption := by
  cases value <;> rfl

@[simp] theorem toOption_pure (value : α) : (pure value : Except Answer α).toOption = some value :=
  rfl

theorem Handler.toOption_prepare (handler : Handler) :
    (handler.prepare echo ctx).toOption = handler.forward echo ctx := by
  cases handler with
  | getAccount | updateAccount | postAccount =>
      simp only [prepare, forward, toOption_bind, toOption_orAnswer, toOption_pure,
        Option.bind_eq_bind, Option.bind_assoc, Option.pure_def]
  | postTransfer =>
      rw [prepare, forward]
      cases ctx.transfer with
      | some transfer =>
          dsimp only
          simp only [toOption_bind, toOption_orAnswer, toOption_pure, Option.bind_eq_bind,
            Option.pure_def]
          rfl
      | none =>
          simp only [toOption_bind, toOption_orAnswer, toOption_pure, Option.bind_eq_bind,
            Option.pure_def]

theorem toOption_foldlM (installed : List Middleware) :
    (installed.foldlM (Middleware.proceed echo) ctx).toOption =
      installed.foldlM (Middleware.pass echo) ctx := by
  induction installed generalizing ctx with
  | nil => rfl
  | cons middleware rest ih =>
      rw [List.foldlM_cons, List.foldlM_cons, toOption_bind, Middleware.proceed, toOption_orAnswer]
      simp only [ih]
      rfl

/-- What is prepared is what is served. -/
theorem Server.toOption_prepare (s : Server) (request : HttpRequest) :
    (s.prepare echo request).toOption = s.serve echo request := by
  rw [prepare, toOption_bind, toOption_foldlM, serve]
  simp only [toOption_bind, toOption_orAnswer, Handler.toOption_prepare]
  cases echo.route routes request with
  | none => simp
  | some route => rfl

theorem Server.prepare_eq_ok_iff {s : Server} {request : HttpRequest} {forwarded : Request} :
    s.prepare echo request = .ok forwarded ↔ s.serve echo request = some forwarded := by
  rw [← toOption_prepare]
  cases s.prepare echo request <;> simp [Except.toOption]

end Agreement

end LetDX.LetDD
