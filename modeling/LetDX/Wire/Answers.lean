import LetDX.Wire.Proxy

/-! # What the proxy promises

An answer is what the ledger has done between the request and the answer, and
every entry that the ledger gains has been asked for by a request that was
allowed to.
-/

namespace LetDX.Wire

open Durable Effects LetDB

/-- How a ledger with this log acts on a request that was forwarded, by what is
written for it, and the log afterwards. -/
inductive Shows (before : List StorageWalEntry) :
    LetDD.Request → LetDD.Written → List StorageWalEntry → Prop
  | account {accountID : U64} {account : LedgerAccount}
      (found : (balanceOf before)[accountID.toNat]? = some account) :
      Shows before (.getAccount accountID)
        ⟨LetDD.statusOK, some (.account (.ofU128 account.credits) (.ofU128 account.debits)
          (LetDD.uint8ToFlags account.flags))⟩ before
  | created {walID : U64} {credits debits : LetDD.Uint128} {flags : U8} {entry : StorageWalEntry}
      (adds : entry.data = .addAccount credits.toU128 debits.toU128 flags)
      (permitted : guardPolicy (balanceOf before) entry.posting) :
      Shows before (.addAccount walID credits debits flags)
        ⟨LetDD.statusCreated, some (.id (BitVec.ofNat 64 (balanceOf before).length))⟩
        (before ++ [entry])
  | transferred {walID fromID toID : U64} {amount : LetDD.Uint128} {entry : StorageWalEntry}
      (adds : entry.data = .makeTransfer fromID toID amount.toU128)
      (permitted : guardPolicy (balanceOf before) entry.posting) :
      Shows before (.makeTransfer walID fromID toID amount) ⟨LetDD.statusNoContent, none⟩
        (before ++ [entry])
  | updated {walID accountID : U64} {flags : U8} {entry : StorageWalEntry}
      (adds : entry.data = .updateAccount accountID flags)
      (permitted : guardPolicy (balanceOf before) entry.posting) :
      Shows before (.updateAccount walID accountID flags) ⟨LetDD.statusNoContent, none⟩
        (before ++ [entry])
  | refused {request : LetDD.Request} {error : Error}
      (rejects : (errorReport error).action = .reject) :
      Shows before request
        ⟨LetDD.statusBadRequest, some (.error "Failed Request" (errorCode error))⟩ before

/-- The types of requests that handlers forward. -/
def Forwardable : LetDD.Request → Prop
  | .getAccount _ | .addAccount .. | .makeTransfer .. | .updateAccount .. => True
  | .magic | .countDatabase | .close => False

theorem answerTo_error {error : LetDD.CommunicateError} {written : LetDD.Written} :
    LetDD.answerTo (.error error) ≠ .ok written := by
  intro heq
  nomatch heq

/-- What is written for a response shows what the ledger has done. -/
theorem Acts.shows {before after : List StorageWalEntry} {request : LetDD.Request}
    {response : LetDD.Response} {written : LetDD.Written} (hforwardable : Forwardable request)
    (hacts : Acts before request.meaning response after)
    (hanswer : LetDD.answerTo (.ok response) = .ok written) :
    Shows before request written after := by
  cases hacts with
  | @committed entry asks numbered permitted =>
      cases request with
      | addAccount walID credits debits flags =>
          have hdata := (Option.some.inj asks).symm
          rw [hdata] at hanswer
          obtain rfl := Except.ok.inj hanswer
          exact .created hdata permitted
      | makeTransfer walID fromID toID amount =>
          have hdata := (Option.some.inj asks).symm
          rw [hdata] at hanswer
          obtain rfl := Except.ok.inj hanswer
          exact .transferred hdata permitted
      | updateAccount walID accountID flags =>
          have hdata := (Option.some.inj asks).symm
          rw [hdata] at hanswer
          obtain rfl := Except.ok.inj hanswer
          exact .updated hdata permitted
      | magic | getAccount | countDatabase | close => nomatch asks
  | told tells =>
      cases request with
      | getAccount accountID =>
          obtain ⟨account, hfound, rfl⟩ := Option.map_eq_some_iff.mp tells
          obtain rfl := Except.ok.inj hanswer
          exact .account hfound
      | magic | countDatabase | close => exact hforwardable.elim
      | addAccount | makeTransfer | updateAccount => nomatch tells
  | refused rejects =>
      obtain rfl := Except.ok.inj hanswer
      exact .refused rejects

theorem forwardable_of_serve {server : LetDD.Server} {echo : LetDD.Echo}
    {request : LetDD.HttpRequest} {forwarded : LetDD.Request}
    (hserve : server.serve echo request = some forwarded) : Forwardable forwarded := by
  obtain ⟨route, _, hserve⟩ := Option.bind_eq_some_iff.mp hserve
  obtain ⟨ctx, _, hforward⟩ := Option.bind_eq_some_iff.mp hserve
  cases hhandler : route.handler with
  | getAccount =>
      rw [hhandler] at hforward
      obtain ⟨accountID, _, heq⟩ := Option.bind_eq_some_iff.mp hforward
      obtain rfl := Option.some.inj heq
      trivial
  | postTransfer =>
      rw [hhandler] at hforward
      obtain ⟨_, _, _, _, _, _, rfl⟩ := LetDD.Handler.forward_transfer hforward
      trivial
  | updateAccount | postAccount =>
      rw [hhandler] at hforward
      have hmutating := (LetDD.Handler.forward_type hforward).1
      cases forwarded with
      | addAccount | makeTransfer | updateAccount | getAccount => trivial
      | magic | countDatabase | close => nomatch hmutating

/-! ## A proxy that can be computed -/

/-- The framework as it treats the requests for two accounts, for a transfer
from the first to the second, and for the second. -/
def ledgerEcho (index : Nat) : LetDD.Echo :=
  { LetDD.transferEcho with
    route := fun routes request => routes.find? fun route =>
      route.method = request.method ∧
        (route.path = request.path ∨ route.path = "/accounts/:id" ∧ request.path = "/accounts/1")
    pathParam := fun _ _ => some 1
    bindPostAccount := fun _ =>
      if index = 0 then some ⟨some (.ofU128 0), some (.ofU128 10), some ["send"]⟩
      else some ⟨some (.ofU128 5), some (.ofU128 6), some ["receive"]⟩ }

theorem ledgerEcho_routes (index : Nat) : (ledgerEcho index).Routes := by
  have hchosen {routes : List LetDD.Route} {request : LetDD.HttpRequest} {route : LetDD.Route}
      (hroute : (ledgerEcho index).route routes request = some route) :
      route.method = request.method ∧
        (route.path = request.path ∨
          route.path = "/accounts/:id" ∧ request.path = "/accounts/1") := by
    have hfound := List.find?_some hroute
    exact of_decide_eq_true hfound
  refine ⟨List.mem_of_find?_eq_some, fun hroute => (hchosen hroute).1, ?_⟩
  intro routes request route hroute hplain
  rcases (hchosen hroute).2 with heq | ⟨heq, _⟩
  · exact heq
  · rw [heq] at hplain
    exact (hplain (by decide)).elim

/-- A proxy with a token, a rate limit and these permissions. -/
def secretServer (permissions : LetDD.Permission) : LetDD.Server :=
  LetDD.newServer freshClient
    { serverToken := LetDD.text "secret".toList
      serverPerms := permissions
      rateLimiter := some {} }

def secretRequest (method path : String) : LetDD.HttpRequest where
  method
  path
  headers := [("Authorization", LetDD.text "Bearer secret".toList)]

def ledgerRequests : List LetDD.HttpRequest :=
  [secretRequest LetDD.methodPost "/accounts", secretRequest LetDD.methodPost "/accounts",
    secretRequest LetDD.methodPost "/transfers", secretRequest LetDD.methodGet "/accounts/1"]

/-- The proxy after these requests. -/
def ledgerProxy (permissions : LetDD.Permission) : Option Proxy :=
  Proxy.respondAll (secretServer permissions) ledgerEcho
    { callings := { object := freshClient, world := freshAround } } ledgerRequests

theorem ledgerProxy_reached {permissions : LetDD.Permission} {proxy : Proxy}
    (hserved : ledgerProxy permissions = some proxy) :
    Proxy.Reached (secretServer permissions) ledgerEcho freshAround proxy :=
  Proxy.respondAll_reached .refl hserved

section Proxies

variable {server : LetDD.Server} {echoes : Nat → LetDD.Echo} {around : Surroundings}
  {proxy : Proxy} {index number : Nat} {exchange : Exchange}

/-- What is written for a request that was forwarded shows what the ledger has
done about it between the request and the answer. An entry that this has added is
recorded for the call of that request. -/
theorem answer_shows (hstarts : Starts server.client around)
    (hreached : Proxy.Reached server echoes around proxy)
    (hexchange : proxy.exchanges[index]? = some exchange) (hcall : exchange.call = some number)
    {written : LetDD.Written} {last : Surroundings}
    (hanswer : exchange.answer = some (.ok written, last)) :
    ∃ forwarded before after, server.serve (echoes index) exchange.request = some forwarded ∧
      exchange.arrived.service.log <+: before ∧ Shows before forwarded written after ∧
      after <+: last.service.log ∧
      (after ≠ before → ∃ position, before.length = around.service.log.length + position ∧
        proxy.callings.world.service.records[position]? = some number) := by
  have hsound := hreached.sound hstarts
  obtain ⟨⟨forwarded, returned, hserved, hcaller⟩, hanswered⟩ :=
    hsound.forwarded index exchange number hexchange hcall
  obtain ⟨call, invoked, result, given, hgiven, heq, hlog⟩ := hanswered _ _ hanswer
  obtain ⟨rfl, rfl, rfl⟩ := Monitor.Caller.mk.inj (Option.some.inj (hcaller.symm.trans hgiven))
  cases result with
  | error error => exact (answerTo_error heq.symm).elim
  | ok response =>
      obtain ⟨_, before, after, hbefore, hacts, hafter, hrecord⟩ :=
        executed_of_returned hstarts hsound.sharing hcaller
      exact ⟨forwarded, before, after, hserved, hbefore,
        hacts.shows (forwardable_of_serve hserved) heq.symm, hafter.trans hlog,
        fun hne => (hrecord hne).1⟩

/-- A transfer between the two accounts is the third entry, by the record of its call. -/
theorem answer_shows_transfer : ∃ proxy exchange last before after entry,
    Proxy.Reached (secretServer (LetDD.permissionRead ||| LetDD.permissionWrite)) ledgerEcho
      freshAround proxy ∧
    proxy.exchanges[2]? = some exchange ∧
    exchange.answer = some (.ok ⟨LetDD.statusNoContent, none⟩, last) ∧
    exchange.arrived.service.log <+: before ∧
    Shows before (.makeTransfer 0 0 1 (.ofU128 1)) ⟨LetDD.statusNoContent, none⟩ after ∧
    after = before ++ [entry] ∧ after <+: last.service.log ∧
    ∃ position, before.length = freshAround.service.log.length + position ∧
      [0, 1, 2][position]? = some 2 := by
  have hserved : (ledgerProxy (LetDD.permissionRead ||| LetDD.permissionWrite)).any (fun proxy =>
      decide (proxy.exchanges[2]?.map (fun exchange =>
          (exchange.request, exchange.call, exchange.answer.map Prod.fst)) =
            some (secretRequest LetDD.methodPost "/transfers", some 2,
              some (.ok ⟨LetDD.statusNoContent, none⟩)) ∧
        proxy.callings.world.service.records = [0, 1, 2])) = true := by
    decide +kernel
  obtain ⟨proxy, hproxy, hchecked⟩ := (Option.any_eq_true _ _).mp hserved
  obtain ⟨hfound, hrecords⟩ := of_decide_eq_true hchecked
  obtain ⟨exchange, hexchange, heq⟩ := Option.map_eq_some_iff.mp hfound
  obtain ⟨hrequest, hrest⟩ := Prod.mk.inj heq
  obtain ⟨hcall, hanswered⟩ := Prod.mk.inj hrest
  obtain ⟨⟨answer, last⟩, hanswer, rfl⟩ := Option.map_eq_some_iff.mp hanswered
  have hreached := ledgerProxy_reached hproxy
  obtain ⟨forwarded, before, after, hserve, hbefore, hshows, hafter, hrecord⟩ :=
    answer_shows starts_fresh hreached hexchange hcall hanswer
  have hforwarded : (secretServer (LetDD.permissionRead ||| LetDD.permissionWrite)).serve
      (ledgerEcho 2) (secretRequest LetDD.methodPost "/transfers") =
        some (.makeTransfer 0 0 1 (.ofU128 1)) := by
    decide +kernel
  rw [hrequest, hforwarded] at hserve
  obtain rfl := Option.some.inj hserve
  rw [hrecords] at hrecord
  cases hshows with
  | @transferred _ _ _ _ entry adds permitted =>
      exact ⟨proxy, exchange, last, before, _, entry, hreached, hexchange, hanswer, hbefore,
        .transferred adds permitted, rfl, hafter, hrecord (by simp)⟩

/-! ## The requests behind the entries -/

/-- The request behind an operation, and the exchange that has forwarded it. -/
structure Behind (server : LetDD.Server) (echoes : Nat → LetDD.Echo) (proxy : Proxy)
    (number : Nat) (data : StorageWalEntryData) (index : Nat) (exchange : Exchange)
    (forwarded : LetDD.Request) : Prop where
  found : proxy.exchanges[index]? = some exchange
  call : exchange.call = some number
  served : server.serve (echoes index) exchange.request = some forwarded
  asks : forwarded.meaning.data = some data

theorem Proxy.Sound.behind (hsound : Proxy.Sound server echoes around proxy)
    {data : StorageWalEntryData} (hasked : askedBy proxy.callings.calls number = some data) :
    ∃ index exchange forwarded,
      Behind server echoes proxy number data index exchange forwarded := by
  obtain ⟨call, hcall, hdata⟩ := Option.bind_eq_some_iff.mp hasked
  cases call with
  | close => nomatch hdata
  | communicate request =>
      obtain ⟨index, exchange, hexchange, hnumber⟩ := hsound.made number request hcall
      obtain ⟨⟨forwarded, returned, hserved, hcaller⟩, _⟩ :=
        hsound.forwarded index exchange number hexchange hnumber
      rw [Monitor.State.calls, List.getElem?_map, hcaller] at hcall
      obtain rfl := Call.communicate.inj (Option.some.inj hcall)
      exact ⟨index, exchange, forwarded, hexchange, hnumber, hserved, hdata⟩

/-- Every entry since the start, and what has been written of the next one, has
a request behind it. -/
theorem exists_behind (hstarts : Starts server.client around)
    (hreached : Proxy.Reached server echoes around proxy) : ∃ more tail,
      proxy.callings.world.service.world.disk.file =
        some (storageWalImage (around.service.log ++ more) ++ tail) ∧
      more.length = proxy.callings.world.service.records.length ∧
      tail.length < storageWalEntrySafeSize ∧
      (∀ (position : Nat) (entry : StorageWalEntry), more[position]? = some entry →
        ∃ number index exchange forwarded,
          proxy.callings.world.service.records[position]? = some number ∧
          Behind server echoes proxy number entry.data index exchange forwarded) ∧
      (tail ≠ [] → ∃ number entry index exchange forwarded, tail <+: StorageWalEntry.safe entry ∧
        Behind server echoes proxy number entry.data index exchange forwarded) := by
  have hsound := hreached.sound hstarts
  obtain ⟨_, htraced⟩ := (sharing_sound hstarts hsound.sharing).during
  obtain ⟨more, hlog, hrecords⟩ := htraced.log
  obtain ⟨tail, hfile, htail, hwhose⟩ := htraced.file
  rw [hlog] at hfile
  have hlength := congrArg List.length hrecords
  rw [List.length_map, List.length_map] at hlength
  refine ⟨more, tail, hfile, hlength, htail, ?_, ?_⟩
  · intro position entry hentry
    have hposition := congrArg (fun asked => asked[position]?) hrecords
    simp only [List.getElem?_map, hentry, Option.map_some] at hposition
    obtain ⟨number, hnumber, hasked⟩ := Option.map_eq_some_iff.mp hposition.symm
    obtain ⟨index, exchange, forwarded, hbehind⟩ := hsound.behind hasked
    exact ⟨number, index, exchange, forwarded, hnumber, hbehind⟩
  · intro hne
    obtain ⟨number, entry, hasked, hwithin⟩ := hwhose hne
    obtain ⟨index, exchange, forwarded, hbehind⟩ := hsound.behind hasked
    exact ⟨number, entry, index, exchange, forwarded, hwithin, hbehind⟩

theorem mutating_of_data {request : LetDD.Request} {data : StorageWalEntryData}
    (hdata : request.meaning.data = some data) : (request.setID 0).isSome := by
  cases request with
  | addAccount | makeTransfer | updateAccount => rfl
  | magic | getAccount | countDatabase | close => nomatch hdata

/-- With a token in its configuration, whatever the ledger has gained was asked for
by a request to write that carried the token, by the permission to write. -/
theorem entries_permitted (hstarts : Starts server.client around)
    (hreached : Proxy.Reached server echoes around proxy)
    (hroutes : ∀ index, (echoes index).Routes) (htoken : server.config.serverToken ≠ []) :
    ∃ more tail, proxy.callings.world.service.world.disk.file =
        some (storageWalImage (around.service.log ++ more) ++ tail) ∧
      more.length = proxy.callings.world.service.records.length ∧
      tail.length < storageWalEntrySafeSize ∧
      ∀ (position : Nat) (entry : StorageWalEntry), more[position]? = some entry →
        ∃ number index exchange forwarded,
          proxy.callings.world.service.records[position]? = some number ∧
          Behind server echoes proxy number entry.data index exchange forwarded ∧
          server.config.serverToken ∈ (echoes index).keys exchange.request ∧
          (exchange.request.method = LetDD.methodPost ∨
            exchange.request.method = LetDD.methodPut) ∧
          server.config.isPermitted LetDD.permissionWrite = true := by
  obtain ⟨more, tail, hfile, hlength, htail, hentries, _⟩ := exists_behind hstarts hreached
  refine ⟨more, tail, hfile, hlength, htail, ?_⟩
  intro position entry hentry
  obtain ⟨number, index, exchange, forwarded, hnumber, hbehind⟩ := hentries position entry hentry
  have hmutating := mutating_of_data hbehind.asks
  obtain ⟨hkey, hwrite⟩ :=
    LetDD.Server.write_of_serve (hroutes index) htoken hbehind.served hmutating
  exact ⟨number, index, exchange, forwarded, hnumber, hbehind, hkey,
    LetDD.Server.method_of_serve (hroutes index) hbehind.served hmutating, hwrite⟩

/-- Two accounts and a transfer are the entries of a proxy that may write. -/
theorem entries_permitted_ledger : ∃ (proxy : Proxy) (more : List StorageWalEntry),
    Proxy.Reached (secretServer LetDD.permissionWrite) ledgerEcho freshAround proxy ∧
    more.length = 3 ∧
    ∀ (position : Nat) (entry : StorageWalEntry), more[position]? = some entry →
      ∃ number index exchange forwarded,
        Behind (secretServer LetDD.permissionWrite) ledgerEcho proxy number entry.data index
          exchange forwarded ∧
        LetDD.text "secret".toList ∈ LetDD.bearerKeys exchange.request := by
  have hserved : (ledgerProxy LetDD.permissionWrite).any (fun proxy =>
      decide (proxy.callings.world.service.records = [0, 1, 2])) = true := by
    decide +kernel
  obtain ⟨proxy, hproxy, hchecked⟩ := (Option.any_eq_true _ _).mp hserved
  have hreached := ledgerProxy_reached hproxy
  obtain ⟨more, tail, _, hlength, _, hentries⟩ :=
    entries_permitted starts_fresh hreached ledgerEcho_routes (by decide)
  rw [of_decide_eq_true hchecked] at hlength
  refine ⟨proxy, more, hreached, hlength, ?_⟩
  intro position entry hentry
  obtain ⟨number, index, exchange, forwarded, _, hbehind, hkey, _⟩ :=
    hentries position entry hentry
  exact ⟨number, index, exchange, forwarded, hbehind, hkey⟩

/-- A proxy without the permission to write never changes the file, whatever the
requests. -/
theorem file_kept_without_write (hstarts : Starts server.client around)
    (hreached : Proxy.Reached server echoes around proxy)
    (hroutes : ∀ index, (echoes index).Routes) (htoken : server.config.serverToken ≠ [])
    (hread : server.config.isPermitted LetDD.permissionWrite = false) :
    proxy.callings.world.service.world.disk.file = around.service.world.disk.file := by
  have hnever {number index : Nat} {data : StorageWalEntryData} {exchange : Exchange}
      {forwarded : LetDD.Request}
      (hbehind : Behind server echoes proxy number data index exchange forwarded) : False := by
    obtain ⟨_, hwrite⟩ := LetDD.Server.write_of_serve (hroutes index) htoken hbehind.served
      (mutating_of_data hbehind.asks)
    rw [hread] at hwrite
    nomatch hwrite
  obtain ⟨more, tail, hfile, _, _, hentries, hwritten⟩ := exists_behind hstarts hreached
  obtain rfl : more = [] := by
    cases more with
    | nil => rfl
    | cons entry rest =>
        obtain ⟨number, index, exchange, forwarded, _, hbehind⟩ := hentries 0 entry rfl
        exact (hnever hbehind).elim
  obtain rfl : tail = [] := by
    by_contra hne
    obtain ⟨number, entry, index, exchange, forwarded, _, hbehind⟩ := hwritten hne
    exact hnever hbehind
  obtain ⟨tail, hstart, _, hwhose⟩ := hstarts.free.2.1.file
  obtain rfl : tail = [] := by
    by_contra hne
    obtain ⟨number, entry, hasked, _⟩ := hwhose hne
    nomatch hasked
  simp only [hfile, hstart, List.append_nil]

/-- The same requests change nothing without the permission to write. -/
theorem file_kept_without_write_ledger : ∃ proxy,
    Proxy.Reached (secretServer LetDD.permissionRead) ledgerEcho freshAround proxy ∧
    proxy.exchanges.length = 4 ∧
    proxy.callings.world.service.world.disk.file = freshAround.service.world.disk.file := by
  have hserved : (ledgerProxy LetDD.permissionRead).any (fun proxy =>
      decide (proxy.exchanges.length = 4)) = true := by
    decide +kernel
  obtain ⟨proxy, hproxy, hchecked⟩ := (Option.any_eq_true _ _).mp hserved
  have hreached := ledgerProxy_reached hproxy
  exact ⟨proxy, hreached, of_decide_eq_true hchecked,
    file_kept_without_write starts_fresh hreached ledgerEcho_routes (by decide) (by decide)⟩

/-- With a rate limiter, every transfer in the ledger since the start was
admitted under the account that sends in it. -/
theorem transfers_admitted (hstarts : Starts server.client around)
    (hreached : Proxy.Reached server echoes around proxy)
    (hroutes : ∀ index, (echoes index).Routes) {limiter : LetDD.RateLimiterMemoryStoreConfig}
    (hlimiter : server.config.rateLimiter = some limiter) :
    ∃ more tail, proxy.callings.world.service.world.disk.file =
        some (storageWalImage (around.service.log ++ more) ++ tail) ∧
      more.length = proxy.callings.world.service.records.length ∧
      tail.length < storageWalEntrySafeSize ∧
      ∀ (position : Nat) (entry : StorageWalEntry) (fromId toId : U64) (amount : U128),
        more[position]? = some entry → entry.data = .makeTransfer fromId toId amount →
        ∃ number index exchange forwarded,
          proxy.callings.world.service.records[position]? = some number ∧
          Behind server echoes proxy number entry.data index exchange forwarded ∧
          (echoes index).allow limiter exchange.request (Bytes.decimal fromId.toNat) = true := by
  obtain ⟨more, tail, hfile, hlength, htail, hentries, _⟩ := exists_behind hstarts hreached
  refine ⟨more, tail, hfile, hlength, htail, ?_⟩
  intro position entry fromId toId amount hentry hdata
  obtain ⟨number, index, exchange, forwarded, hnumber, hbehind⟩ := hentries position entry hentry
  refine ⟨number, index, exchange, forwarded, hnumber, hbehind, ?_⟩
  have hasks := hbehind.asks
  rw [hdata] at hasks
  cases forwarded with
  | makeTransfer walID fromID toID amount' =>
      obtain ⟨rfl, _, _⟩ := StorageWalEntryData.makeTransfer.inj (Option.some.inj hasks)
      exact LetDD.Server.admitted_of_serve (hroutes index) hlimiter hbehind.served
  | addAccount | updateAccount => nomatch hasks
  | magic | getAccount | countDatabase | close => nomatch hasks

/-- The transfer is the third entry, and account zero has sent it. -/
theorem transfers_admitted_ledger : ∃ (proxy : Proxy) (more : List StorageWalEntry),
    Proxy.Reached (secretServer LetDD.permissionWrite) ledgerEcho freshAround proxy ∧
    more.length = 3 ∧
    ∀ (position : Nat) (entry : StorageWalEntry) (fromId toId : U64) (amount : U128),
      more[position]? = some entry → entry.data = .makeTransfer fromId toId amount →
      ∃ number index exchange forwarded,
        Behind (secretServer LetDD.permissionWrite) ledgerEcho proxy number entry.data index
          exchange forwarded ∧
        (ledgerEcho index).allow {} exchange.request (Bytes.decimal fromId.toNat) = true := by
  have hserved : (ledgerProxy LetDD.permissionWrite).any (fun proxy =>
      decide (proxy.callings.world.service.records = [0, 1, 2])) = true := by
    decide +kernel
  obtain ⟨proxy, hproxy, hchecked⟩ := (Option.any_eq_true _ _).mp hserved
  have hreached := ledgerProxy_reached hproxy
  obtain ⟨more, tail, _, hlength, _, htransfers⟩ :=
    transfers_admitted starts_fresh hreached ledgerEcho_routes rfl
  rw [of_decide_eq_true hchecked] at hlength
  refine ⟨proxy, more, hreached, hlength, ?_⟩
  intro position entry fromId toId amount hentry hdata
  obtain ⟨number, index, exchange, forwarded, _, hbehind, hallow⟩ :=
    htransfers position entry fromId toId amount hentry hdata
  exact ⟨number, index, exchange, forwarded, hbehind, hallow⟩

end Proxies

end LetDX.Wire
