import LetDX.LetDB.Server.Connections
import LetDX.LetDB.Server.Health
import LetDX.Wire.Logs

/-! # A healthy server is the ledger

When nothing fails, what the server sends on a connection is, line by line, what
a sequential ledger answers, and its log afterwards is that of the ledger.
-/

namespace LetDX.Wire

open Durable Effects LetDB

/-! ## The ledger as an interpreter of requests -/

/-- The answer of a ledger with this log to a request, and its log afterwards. It
refuses no operation that has the next number and is permitted by the rules of
the guard, and no inquiry that it can answer. -/
inductive Obliges (before : List StorageWalEntry) (request : NetworkRequest) :
    NetworkResponse → List StorageWalEntry → Prop
  | committed {entry : StorageWalEntry} (requested : Requested before request entry) :
      Obliges before request (entry.data.reply (BitVec.ofNat 64 (balanceOf before).length))
        (before ++ [entry])
  | told {response : NetworkResponse} (tells : tells before request = some response) :
      Obliges before request response before
  | refused {error : Error} (rejects : (errorReport error).action = .reject)
      (unasked : ∀ entry, ¬Requested before request entry) (untold : tells before request = none) :
      Obliges before request (.error error) before

/-- The error and the request that a line is decoded to. -/
def decoded (line : List U8) : Error × NetworkRequest :=
  networkRequestDecode (line ++ [asciiSpace]) networkRequestEmpty

/-- The same for a line, which may be no request at all. -/
inductive Replies (before : List StorageWalEntry) (line : List U8) :
    NetworkResponse → List StorageWalEntry → Prop
  | unread {error : Error} {request : NetworkRequest} (decodes : decoded line = (error, request))
      (exist : errorExists error) : Replies before line (.error error) before
  | read {request : NetworkRequest} {response : NetworkResponse} {after : List StorageWalEntry}
      (decodes : decoded line = (.none, request))
      (obliges : Obliges before request response after) : Replies before line response after

/-- The same for one line after the other. -/
inductive Exchanges (first : List StorageWalEntry) :
    List (List U8) → List NetworkResponse → List StorageWalEntry → Prop
  | nil : Exchanges first [] [] first
  | concat {lines : List (List U8)} {line : List U8} {responses : List NetworkResponse}
      {response : NetworkResponse} {before after : List StorageWalEntry}
      (exchanges : Exchanges first lines responses before)
      (replies : Replies before line response after) :
      Exchanges first (lines ++ [line]) (responses ++ [response]) after

/-- The line asks for the end of the connection. -/
def closes (line : List U8) : Prop :=
  decoded line = (.none, .close)

instance (line : List U8) : Decidable (closes line) :=
  inferInstanceAs (Decidable (_ = _))

/-- The lines up to the first that asks for the end of the connection. -/
def heeded : List (List U8) → List (List U8)
  | [] => []
  | line :: lines => if closes line then [line] else line :: heeded lines

/-- What a client sends. -/
def script (lines : List (List U8)) : List U8 :=
  lines.flatMap fun line => line ++ [asciiNewline]

theorem script_append (lines lines' : List (List U8)) :
    script (lines ++ lines') = script lines ++ script lines' :=
  List.flatMap_append

theorem script_cons (line : List U8) (lines : List (List U8)) :
    script (line :: lines) = line ++ asciiNewline :: script lines := by
  simp [script]

theorem Obliges.length_le {before after : List StorageWalEntry} {request : NetworkRequest}
    {response : NetworkResponse} (hobliges : Obliges before request response after) :
    after.length ≤ before.length + 1 := by
  cases hobliges with
  | committed => simp
  | told | refused => exact Nat.le_succ _

theorem Exchanges.length_le {first log : List StorageWalEntry} {lines : List (List U8)}
    {responses : List NetworkResponse} (hexchanges : Exchanges first lines responses log) :
    log.length ≤ first.length + lines.length := by
  induction hexchanges with
  | nil => exact Nat.le_refl _
  | concat _ replies ih =>
      rw [List.length_append, List.length_singleton]
      cases replies with
      | unread => omega
      | read _ obliges =>
          have hlength := obliges.length_le
          omega

/-! ## A connection -/

/-- What has been said on a connection so far: the lines that have been answered
and what is left of them, with the log of the ledger that has answered. -/
structure Said (first : List StorageWalEntry) (lines answered todo : List (List U8))
    (log : List StorageWalEntry) (world : World) : Prop where
  split : lines = answered ++ todo
  heeds : heeded lines = answered ++ heeded todo
  exchanges : ∃ responses, Exchanges first answered responses log ∧
    world.sent = responses.flatMap NetworkResponse.bytes
  raised : world.accepting = true
  executing : world.executing = true

/-- Where a connection with these lines has come to. -/
inductive Conversing (first : List StorageWalEntry) (lines : List (List U8)) :
    LetRun → World → Prop
  | reading {context : Let} {world : World} {answered todo : List (List U8)}
      {log : List StorageWalEntry} (said : Said first lines answered todo log world)
      (agrees : Agrees log context world.disk) (received : world.received = script answered) :
      Conversing first lines (.reading context) world
  | processing {context : Let} {request : NetworkRequest} {world : World}
      {answered todo : List (List U8)} {line : List U8} {log : List StorageWalEntry}
      (said : Said first lines answered (line :: todo) log world)
      (agrees : Agrees log context world.disk)
      (received : world.received = script (answered ++ [line]))
      (decodes : decoded line = (.none, request)) :
      Conversing first lines (.processing context request) world
  | responding {context : Let} {request : NetworkRequest} {response : NetworkResponse}
      {world : World} {answered todo : List (List U8)} {line : List U8}
      {log log' : List StorageWalEntry}
      (said : Said first lines answered (line :: todo) log world)
      (agrees : Agrees log' context world.disk)
      (received : world.received = script (answered ++ [line]))
      (replies : Replies log line response log') (closing : request = .close ↔ closes line) :
      Conversing first lines (.responding context request response) world
  | ended {context : Let} {world : World} {responses : List NetworkResponse}
      {log : List StorageWalEntry} (exchanges : Exchanges first (heeded lines) responses log)
      (sent : world.sent = responses.flatMap NetworkResponse.bytes)
      (agrees : Agrees log context world.disk) :
      Conversing first lines (.accepting context) world

section Steps

variable {first log log' : List StorageWalEntry} {lines answered todo : List (List U8)}
  {line : List U8} {world : World} {context : Let} {request : NetworkRequest}
  {response : NetworkResponse}

theorem Said.congr {world' : World} (hsaid : Said first lines answered todo log world)
    (hsent : world'.sent = world.sent) (haccepting : world'.accepting = world.accepting)
    (hexecuting : world'.executing = world.executing) :
    Said first lines answered todo log world' where
  split := hsaid.split
  heeds := hsaid.heeds
  exchanges := hsent ▸ hsaid.exchanges
  raised := haccepting.trans hsaid.raised
  executing := hexecuting.trans hsaid.executing

/-- What the decoder does not accept is answered, and is not taken for a request
for the end of the connection. -/
theorem rejected_of_decoded {error : Error} (hdecodes : decoded line = (error, request))
    (hexists : errorExists error) :
    (errorReport error).action = .reject ∧ (request = .close ↔ closes line) := by
  have hopen : ¬closes line := by
    rintro hcloses
    obtain ⟨rfl, _⟩ := Prod.mk.inj (hdecodes.symm.trans hcloses)
    cases hexists
  rw [decoded, networkRequestDecode] at hdecodes
  split at hdecodes
  next error' hrun =>
    obtain ⟨rfl, rfl⟩ := Prod.mk.inj hdecodes
    refine ⟨rejects_run _ _ hrun, iff_of_false ?_ hopen⟩
    exact fun heq => by cases heq
  next =>
    obtain ⟨rfl, _⟩ := Prod.mk.inj hdecodes
    cases hexists

/-- What a request that was processed is answered with. -/
theorem obliges_handled {point : LetRun} (hagrees : Agrees log context world.disk) {world' : World}
    (hhandled : Handled log context request world point world') :
    ∃ context' response log', point = .responding context' request response ∧
      Obliges log request response log' ∧ Agrees log' context' world'.disk ∧
      world' = { world with disk := world'.disk } := by
  cases hhandled with
  | @committed entry context' requested agrees =>
      have hlength : context.state.accountList.length =
          BitVec.ofNat 64 (balanceOf log).length := by
        rw [balanceOf, ← hagrees.ledger, length_ledgerOf]
        rfl
      rw [hlength]
      exact ⟨_, _, _, rfl, .committed requested, agrees, rfl⟩
  | answered inquiry =>
      refine ⟨_, _, _, rfl, .told ?_, hagrees.withError .none, rfl⟩
      rw [← tells_of_agrees hagrees]
      exact inquiry
  | refused action unasked unknown =>
      refine ⟨_, _, _, rfl, .refused action unasked ?_, hagrees.withError .none, rfl⟩
      rw [← tells_of_agrees hagrees]
      exact unknown

/-- The step lemma for processing a request. -/
theorem processing_thrives (hsaid : Said first lines answered (line :: todo) log world)
    (hagrees : Agrees log context world.disk)
    (hreceived : world.received = script (answered ++ [line]))
    (hdecodes : decoded line = (.none, request))
    (hroom : first.length + lines.length ≤ 2 ^ 56) :
    Thrives (script lines) (fun point world' => Conversing first lines point world' ∧
        world'.received = world.received ∧ point.rank < 3)
      (letRunStep (.processing context request)) world := by
  have hlength : log.length < 2 ^ 56 := by
    obtain ⟨responses, hexchanges, _⟩ := hsaid.exchanges
    have hlog := hexchanges.length_le
    rw [hsaid.split, List.length_append, List.length_cons] at hroom
    omega
  refine (letRunStep_processing_thrives hagrees hlength).weaken ?_
  intro point world' hhandled
  obtain ⟨context', response, log', rfl, hobliges, hagrees', hworld⟩ :=
    obliges_handled hagrees hhandled
  have hclosing : request = .close ↔ closes line := by
    rw [closes, hdecodes, Prod.mk.injEq]
    exact (and_iff_right rfl).symm
  rw [hworld] at hagrees' ⊢
  refine ⟨?_, rfl, Nat.lt_succ_self 2⟩
  exact .responding (hsaid.congr rfl rfl rfl) hagrees' hreceived (.read hdecodes hobliges) hclosing

/-- The step lemma for reading the next line. -/
theorem reading_thrives (hsaid : Said first lines answered (line :: todo) log world)
    (hagrees : Agrees log context world.disk) (hreceived : world.received = script answered)
    (hline : asciiNewline ∉ line) (hshort : line.length < networkBufferLength) :
    Thrives (script lines) (fun point world' => Conversing first lines point world' ∧
        world'.received = world.received ++ line ++ [asciiNewline])
      (letRunStep (.reading context)) world := by
  have hinput : world.received ++ (line ++ asciiNewline :: script todo) = script lines := by
    rw [hreceived, hsaid.split, script_append, script_cons]
  have hreceived' : world.received ++ line ++ [asciiNewline] = script (answered ++ [line]) := by
    rw [hreceived, script_append, List.append_assoc]
    simp [script]
  refine .bind (read_thrives hinput hline hshort ?_)
  cases hdecodes : networkRequestDecode (line ++ [asciiSpace]) networkRequestEmpty with
  | mk error request =>
      dsimp only
      split
      next hexists =>
        obtain ⟨haction, hclosing⟩ := rejected_of_decoded hdecodes hexists
        unfold letRunDispatch
        rw [haction]
        exact .pure trivial ⟨.responding (hsaid.congr rfl rfl rfl) (hagrees.withError .none)
          hreceived' (.unread hdecodes hexists) hclosing, rfl⟩
      next hnone =>
        obtain rfl : error = .none := by simpa [errorExists] using hnone
        exact .pure trivial ⟨.processing (hsaid.congr rfl rfl rfl) (hagrees.withError .none)
          hreceived' hdecodes, rfl⟩

/-- The step lemma for the end of the lines. -/
theorem closing_thrives (hsaid : Said first lines answered [] log world)
    (hagrees : Agrees log context world.disk) (hreceived : world.received = script answered) :
    Thrives (script lines) (fun point world' => Conversing first lines point world' ∧ point.Ended)
      (letRunStep (.reading context)) world := by
  obtain ⟨responses, hexchanges, hsent⟩ := hsaid.exchanges
  have hanswered : heeded lines = answered := by rw [hsaid.heeds, heeded, List.append_nil]
  have hinput : world.received ++ [] = script lines := by
    rw [hreceived, hsaid.split, List.append_nil, List.append_nil]
  refine .bind (read_closed_thrives hinput List.not_mem_nil (by decide)
    (.bind (setExecuting_thrives ?_)))
  refine letRunExecuting_thrives (fun heq => by cases heq) (fun _ _ => ⟨?_, trivial⟩) hsaid.raised
  exact .ended (hanswered ▸ hexchanges) hsent (hagrees.withError .none)

/-- The step lemma for sending a response. -/
theorem responding_thrives (hsaid : Said first lines answered (line :: todo) log world)
    (hagrees : Agrees log' context world.disk)
    (hreceived : world.received = script (answered ++ [line]))
    (hreplies : Replies log line response log') (hclosing : request = .close ↔ closes line) :
    Thrives (script lines) (fun point world' => Conversing first lines point world' ∧
        world'.received = world.received ∧ point.rank < 2)
      (letRunStep (.responding context request response)) world := by
  obtain ⟨responses, hexchanges, hsent⟩ := hsaid.exchanges
  have hsent' : world.sent ++ response.bytes =
      (responses ++ [response]).flatMap NetworkResponse.bytes := by
    rw [hsent, List.flatMap_append, List.flatMap_singleton]
  refine .bind (networkClientWrite_thrives ?_)
  have hnone : ¬errorExists Error.none := by decide
  unfold letRunResponded
  rw [if_neg hnone]
  split
  next hclose =>
    have hanswered : heeded lines = answered ++ [line] := by
      rw [hsaid.heeds, heeded, if_pos (hclosing.mp hclose)]
    refine .bind (setExecuting_thrives ?_)
    refine letRunExecuting_thrives (fun heq => by cases heq) (fun _ _ => ⟨?_, rfl, ?_⟩)
      hsaid.raised
    · exact .ended (hanswered ▸ hexchanges.concat hreplies) hsent' (hagrees.withError .none)
    · exact Nat.succ_pos 1
  next hopen =>
    have hsaid' : Said first lines (answered ++ [line]) todo log'
        { world with sent := world.sent ++ response.bytes } := by
      refine ⟨?_, ?_, ⟨_, hexchanges.concat hreplies, hsent'⟩, hsaid.raised, hsaid.executing⟩
      · rw [hsaid.split, List.append_assoc, List.singleton_append]
      · rw [hsaid.heeds, heeded, if_neg fun hcloses => hopen (hclosing.mpr hcloses),
          List.append_assoc, List.singleton_append]
    refine letRunExecuting_thrives (fun _ => ⟨?_, rfl, ?_⟩) (fun heq => ?_) hsaid.raised
    · exact .reading hsaid' (hagrees.withError .none) hreceived
    · exact Nat.lt_succ_self 1
    · rw [hsaid'.executing] at heq
      cases heq

theorem remaining_le (limit : Nat) (point : LetRun) (world : World) :
    remaining limit point world ≤ 4 * (limit - world.received.length) + point.rank := by
  cases point with
  | accepting | finished => exact Nat.zero_le _
  | reading | processing | responding => exact Nat.le_refl _

theorem rank_le (point : LetRun) : point.rank ≤ 3 := by
  cases point <;> simp [LetRun.rank]

/-- The step lemma. -/
theorem Conversing.step {point : LetRun} (hconversing : Conversing first lines point world)
    (hopen : ¬point.Ended)
    (hlines : ∀ line ∈ lines, asciiNewline ∉ line ∧ line.length < networkBufferLength)
    (hroom : first.length + lines.length ≤ 2 ^ 56) :
    Thrives (script lines) (fun point' world' => Conversing first lines point' world' ∧
        remaining (script lines).length point' world' < remaining (script lines).length point world)
      (letRunStep point) world := by
  cases hconversing with
  | ended => exact (hopen trivial).elim
  | processing said agrees received decodes =>
      refine (processing_thrives said agrees received decodes hroom).weaken ?_
      rintro point' world' ⟨hconversing, hreceived, hrank⟩
      refine ⟨hconversing, (remaining_le _ _ _).trans_lt ?_⟩
      rw [hreceived]
      exact Nat.add_lt_add_left hrank _
  | responding said agrees received replies closing =>
      refine (responding_thrives said agrees received replies closing).weaken ?_
      rintro point' world' ⟨hconversing, hreceived, hrank⟩
      refine ⟨hconversing, (remaining_le _ _ _).trans_lt ?_⟩
      rw [hreceived]
      exact Nat.add_lt_add_left hrank _
  | @reading context world answered todo log said agrees received =>
      cases todo with
      | nil =>
          refine (closing_thrives said agrees received).weaken ?_
          rintro point' world' ⟨hconversing, hended⟩
          refine ⟨hconversing, ?_⟩
          rw [remaining_of_ended hended]
          exact Nat.succ_pos _
      | cons line todo =>
          obtain ⟨hline, hshort⟩ := hlines line (said.split ▸ by simp)
          refine (reading_thrives said agrees received hline hshort).weaken ?_
          rintro point' world' ⟨hconversing, hreceived⟩
          refine ⟨hconversing, (remaining_le _ _ _).trans_lt ?_⟩
          have hinput := congrArg (List.length ∘ script) said.split
          have hrank := rank_le point'
          simp only [Function.comp_apply, script_append, script_cons, List.length_append,
            List.length_cons, ← received] at hinput
          change _ < 4 * ((script lines).length - world.received.length) + 1
          rw [hreceived]
          simp only [List.length_append, List.length_singleton]
          omega

end Steps

/-- What a connection comes to that the server accepts, if nothing fails: all lines
up to a request to close are answered as the ledger answers them. -/
theorem connection_served {context : Let} {world : World}
    (hreachable : Reachable (.accepting context) world) {lines : List (List U8)}
    (hlines : ∀ line ∈ lines, asciiNewline ∉ line ∧ line.length < networkBufferLength)
    (hroom : (logOf world.disk).length + lines.length ≤ 2 ^ 56) :
    Thrives (script lines)
      (fun point world' => ∃ context' responses, point = .accepting context' ∧
        Exchanges (logOf world.disk) (heeded lines) responses (logOf world'.disk) ∧
        world'.sent = responses.flatMap NetworkResponse.bytes)
      (do let point ← letRunStep (.accepting context); letRunConnection point) world := by
  obtain ⟨log, hagrees⟩ := hreachable.agrees fun _ heq => by cases heq
  have hlog := logOf_agrees hagrees
  have hraised : world.accepting = true := hreachable.raised context rfl
  rw [hlog] at hroom ⊢
  have hstart : Conversing log lines (.reading { context with error := .none })
      { world with received := [], sent := [], executing := true } :=
    .reading ⟨rfl, rfl, ⟨[], .nil, rfl⟩, hraised, rfl⟩ (hagrees.withError .none) rfl
  have haccepts : Thrives (script lines) (fun point world' => Conversing log lines point world')
      (letRunStep (.accepting context)) world := by
    refine .bind (.bind (thrives_call .accept fun handle => .pure trivial ?_))
    rw [if_neg (by decide)]
    refine .bind (setExecuting_thrives ?_)
    exact letRunExecuting_thrives (fun _ => hstart) (fun heq => by cases heq) hraised
  refine .bind (haccepts.weaken fun point world' hconversing => ?_)
  refine .iterate (Conversing log lines) (remaining (script lines).length) ?_ hconversing
  intro point world' hconversing
  have hstep (hopen : ¬point.Ended) := hconversing.step hopen hlines hroom
  cases point with
  | finished context => cases hconversing
  | accepting context =>
      refine .pure trivial ?_
      cases hconversing with
      | ended exchanges sent agrees =>
          rw [logOf_agrees agrees]
          exact ⟨_, _, rfl, exchanges, sent⟩
  | reading context | processing context request | responding context request response =>
      exact .bind ((hstep id).weaken fun _ _ hshorter => .pure trivial hshorter)

/-- An account is opened, a line is no request, and the client asks for the end. -/
def openingLines : List (List U8) :=
  ["+0 3 9 7", "+1", "#", "."].map fun line =>
    line.toList.map fun letter => BitVec.ofNat 8 letter.toNat

theorem connection_served_opening :
    Thrives (script openingLines)
      (fun point world' => ∃ context' responses, point = .accepting context' ∧
        Exchanges (logOf freshWorld.disk) (heeded openingLines) responses (logOf world'.disk) ∧
        world'.sent = responses.flatMap NetworkResponse.bytes)
      (do let point ← letRunStep (.accepting freshContext); letRunConnection point) freshWorld :=
  connection_served reachable_fresh (by decide) (by decide)

end LetDX.Wire
