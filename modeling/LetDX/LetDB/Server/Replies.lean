import LetDX.Effects.Relation
import LetDX.LetDB.Network.Language
import LetDX.LetDB.Server.Footprints

/-! # The replies on one connection

Every line read is followed by its reply before the next is read. A send that
fails with an error that closes the connection leaves the last reply incomplete.
A send that is interrupted, or after which the client is gone, does not: the
loop then reads on.
-/

namespace LetDX.LetDB

open Durable Effects Machine

/-! ## Sends that fail in no other way than closing the connection -/

/-- The answers to a send after which the loop does not close the connection,
although bytes are missing. -/
def Unreported : (call : Syscall) → call.Answer → Prop
  | .send bytes, (result : SendResult) =>
      result = .interrupted ∨ bytes ≠ [] ∧ result = .sent 0
  | _, _ => False

/-- The system on which no send is interrupted or sends nothing. -/
def steady : Machine host World :=
  (system false).avoiding Unreported

instance (call : host.Op) : Nonempty (((system false).avoiding Unreported).Choice call) := by
  obtain ⟨choice⟩ : Nonempty ((system false).Choice call) := inferInstance
  cases call with
  | send bytes =>
      refine ⟨⟨SendResult.failed, fun _ hunreported => ?_⟩⟩
      rcases hunreported with heq | ⟨_, heq⟩ <;> nomatch heq
  | _ => exact ⟨⟨choice, fun _ => not_false⟩⟩

section Steady

variable {α : Type} {program : Proc α} {value : α} {world world' : World}

theorem returns_of_steady (hreturn : steady.Returns program world value world') :
    (system false).Returns program world value world' :=
  Returns.mono (fun _ _ _ _ hperforms => (performs_of_avoiding hperforms).1) hreturn

theorem ensures_steady {post : α → World → Prop}
    (hmeets : Meets false (fun _ => True) post program world) :
    steady.Ensures (fun _ => True) post program world :=
  hmeets.avoiding

/-- On the steady system the sending loop sends everything or closes. -/
theorem networkClientWrite_steady {response : NetworkResponse} {error : Error}
    (hreturn : steady.Returns (networkClientWrite response) world error world') :
    ∃ chunk, chunk <+: response.bytes ∧ world' = { world with sent := world.sent ++ chunk } ∧
      (error = .none ∧ chunk = response.bytes ∨ (errorReport error).action = .close) := by
  have hsteady : steady.Ensures (fun _ => True)
      (fun error world' => ∃ chunk, chunk <+: response.bytes ∧
        world' = { world with sent := world.sent ++ chunk } ∧
        (error = .none ∧ chunk = response.bytes ∨ (errorReport error).action = .close))
      (networkClientWrite response) world := by
    rw [networkClientWrite_eq]
    apply networkClientWriteLoop_stopped
    · intro bytes world
      obtain ⟨choice⟩ : Nonempty (((system false).avoiding Unreported).Choice (.send bytes)) :=
        inferInstance
      exact ⟨_, _, choice, rfl⟩
    · exact fun _ _ _ _ hperforms => (performs_of_avoiding hperforms).1
    · exact fun _ _ => trivial
    · intro error chunk hchunk hwhole hstopped
      refine ⟨chunk, hchunk, rfl, ?_⟩
      cases hstopped with
      | sent => exact .inl ⟨rfl, hwhole rfl⟩
      | closed nonempty performs =>
          exact ((performs_of_avoiding performs).2 (.inr ⟨nonempty, rfl⟩)).elim
      | interrupted performs => exact ((performs_of_avoiding performs).2 (.inl rfl)).elim
      | failed action => exact .inr action
  exact hsteady.returns hreturn

end Steady

/-! ## One step on a connection -/

/-- The bytes that pass in one step. -/
inductive Spoke : LetRun → World → LetRun → World → Prop
  | heard {context : Let} {line : List U8} {point' : LetRun} {world world' : World}
      (newline : asciiNewline ∉ line)
      (due : (∃ context request, point' = .processing context request) ∨
        ∃ context request error, point' = .responding context request (.error error))
      (received : world'.received = world.received ++ (line ++ [asciiNewline]))
      (sent : world'.sent = world.sent) : Spoke (.reading context) world point' world'
  | unfinished {context : Let} {rest : List U8} {point' : LetRun} {world world' : World}
      (newline : asciiNewline ∉ rest) (ended : point'.Ended)
      (received : world'.received = world.received ++ rest)
      (sent : world'.sent = world.sent) : Spoke (.reading context) world point' world'
  | processed {context context' : Let} {request : NetworkRequest} {response : NetworkResponse}
      {world world' : World} (same : SameBytes world world') :
      Spoke (.processing context request) world (.responding context' request response) world'
  | failed {context : Let} {request : NetworkRequest} {point' : LetRun} {world world' : World}
      (ended : point'.Ended) (same : SameBytes world world') :
      Spoke (.processing context request) world point' world'
  | replied {context context' : Let} {request : NetworkRequest} {response : NetworkResponse}
      {world world' : World} (received : world'.received = world.received)
      (sent : world'.sent = world.sent ++ response.bytes) :
      Spoke (.responding context request response) world (.reading context') world'
  | cut {context : Let} {request : NetworkRequest} {response : NetworkResponse} {chunk : List U8}
      {point' : LetRun} {world world' : World} (within : chunk <+: response.bytes)
      (ended : point'.Ended) (received : world'.received = world.received)
      (sent : world'.sent = world.sent ++ chunk) :
      Spoke (.responding context request response) world point' world'

section Steps

variable {reliable : Bool} {during : Disk → Prop} {world world' : World} {context : Let}
  {request : NetworkRequest}

theorem letRunStep_reading_spec (hduring : during world.disk) :
    Meets reliable during (Spoke (.reading context) world) (letRunStep (.reading context))
      world := by
  refine .bind (networkClientRead_spec hduring ?_ ?_)
  · intro line hnewline
    have hrejects := decode_rejects (line ++ [asciiSpace]) networkRequestEmpty
    cases hdecodes : networkRequestDecode (line ++ [asciiSpace]) networkRequestEmpty with
    | mk error request =>
        rw [hdecodes] at hrejects
        dsimp only at hrejects ⊢
        split
        next hexists =>
          unfold letRunDispatch
          dsimp only
          rw [hrejects hexists]
          refine .pure hduring (.heard hnewline (.inr ⟨_, _, _, rfl⟩) ?_ rfl)
          rw [List.append_assoc]
        next =>
          refine .pure hduring (.heard hnewline (.inl ⟨_, _, rfl⟩) ?_ rfl)
          rw [List.append_assoc]
  · intro error line hnewline haction
    have hexists : errorExists error := by
      rcases haction with haction | haction <;> cases error <;> first | rfl | nomatch haction
    dsimp only
    rw [if_pos hexists]
    apply letRunDispatch_spec
    · exact hduring
    · intro hnone
      rcases haction with haction | haction <;> nomatch haction.symm.trans hnone
    · intro hreject
      rcases haction with haction | haction <;> nomatch haction.symm.trans hreject
    · intro point' error' world₁ hended _ hflags
      exact .unfinished hnewline hended hflags.received hflags.sent

/-- Processing a request ends with a reply that is due, or ends the loops. -/
theorem processing_spoke {point' : LetRun}
    (hreachable : Reachable (.processing context request) world)
    (hreturn : (system false).Returns (letRunStep (.processing context request)) world point'
      world') : Spoke (.processing context request) world point' world' := by
  have hsame : SameBytes world world' := by
    refine (Reaches.along ?_ hreturn (silent_processing context request)).2
    rintro call hsilent world answer world' ⟨choice, hexec⟩
    have hbytes := hsilent.sameBytes false choice world
    rwa [show call.exec false choice world = (answer, world') from hexec] at hbytes
  obtain ⟨entries, hagrees⟩ := hreachable.agrees (fun _ heq => nomatch heq)
  cases processed_of_returns hagrees hreturn with
  | committed => exact .processed hsame
  | answered => exact .processed hsame
  | refused => exact .processed hsame
  | fatal => exact .failed trivial hsame

theorem responding_spoke {response : NetworkResponse} {point' : LetRun}
    (hreturn : steady.Returns (letRunStep (.responding context request response)) world point'
      world') : Spoke (.responding context request response) world point' world' := by
  obtain ⟨error, middle, hwrite, hrest⟩ := returns_bind.mp hreturn
  obtain ⟨chunk, hchunk, rfl, hreported⟩ := networkClientWrite_steady hwrite
  have hrest' := returns_of_steady hrest
  rcases hreported with ⟨rfl, rfl⟩ | haction
  · have hmeets : Meets false (fun _ => True)
        (Spoke (.responding context request response) world)
        (letRunResponded { context with error := .none } request)
        { world with sent := world.sent ++ response.bytes } := by
      apply letRunResponded_spec trivial
      · exact fun _ hflags => .replied hflags.received hflags.sent
      · exact fun _ _ hended _ hflags => .cut List.prefix_rfl hended hflags.received hflags.sent
    exact hmeets.returns hrest'
  · have hexists : errorExists error := by
      cases error <;> first | rfl | nomatch haction
    have hmeets : Meets false (fun _ => True)
        (Spoke (.responding context request response) world)
        (letRunResponded { context with error } request)
        { world with sent := world.sent ++ chunk } := by
      unfold letRunResponded
      dsimp only
      rw [if_pos hexists, haction, if_neg (by decide)]
      apply letRunClosing_spec trivial
      exact fun _ _ hended _ hflags => .cut hchunk hended hflags.received hflags.sent
    exact hmeets.returns hrest'

/-- The step lemma of connections. -/
theorem letRunStep_spoke {point point' : LetRun} (hreachable : Reachable point world)
    (hopen : ¬point.Ended)
    (hreturn : steady.Returns (letRunStep point) world point' world') :
    Spoke point world point' world' := by
  cases point with
  | accepting | finished => exact (hopen trivial).elim
  | reading context =>
      have hmeets : Meets false (fun _ => True) (Spoke (.reading context) world)
          (letRunStep (.reading context)) world := letRunStep_reading_spec trivial
      exact hmeets.returns (returns_of_steady hreturn)
  | processing context request => exact processing_spoke hreachable (returns_of_steady hreturn)
  | responding context request response => exact responding_spoke hreturn

end Steps

/-! ## Whole connections -/

/-- The replies set so far, once a program point has been reached. -/
def replies (responses : List NetworkResponse) : LetRun → List NetworkResponse
  | .responding _ _ response => responses ++ [response]
  | .accepting _ | .reading _ | .processing .. | .finished _ => responses

/-- On a connection to a server, the loop has come to a program point and has set
these replies on the way, in this order. -/
inductive Connection (machine : Machine host World) : List NetworkResponse → LetRun → World → Prop
  | accepted {context context' : Let} {world world' : World}
      (reachable : Reachable (.accepting context) world)
      (stepped : machine.Returns (letRunStep (.accepting context)) world (.reading context')
        world') : Connection machine [] (.reading context') world'
  | step {responses : List NetworkResponse} {point point' : LetRun} {world world' : World}
      (connection : Connection machine responses point world) (unended : ¬point.Ended)
      (stepped : machine.Returns (letRunStep point) world point' world') :
      Connection machine (replies responses point') point' world'

/-- The world at some instant on a connection. -/
inductive OnConnection (machine : Machine host World) : List NetworkResponse → World → Prop
  | point {responses : List NetworkResponse} {point : LetRun} {world : World}
      (connection : Connection machine responses point world) :
      OnConnection machine responses world
  | within {responses : List NetworkResponse} {point : LetRun} {world world' : World}
      (connection : Connection machine responses point world) (unended : ¬point.Ended)
      (passes : machine.Passes (letRunStep point) world world') :
      OnConnection machine responses world'

/-- The bytes of lines with their newlines. -/
def spelled (lines : List (List U8)) : List U8 :=
  lines.flatMap (· ++ [asciiNewline])

/-- Every line read has its whole reply, in order; or the last one has at most a
part of its reply, and nothing is read past that line. -/
inductive InOrder (responses : List NetworkResponse) (world : World) : Prop
  | answered {lines : List (List U8)} {rest : List U8}
      (received : world.received = spelled lines ++ rest)
      (whole : ∀ line ∈ lines, asciiNewline ∉ line) (unfinished : asciiNewline ∉ rest)
      (count : responses.length = lines.length)
      (sent : world.sent = responses.flatMap NetworkResponse.bytes) : InOrder responses world
  | owing {lines : List (List U8)} {line : List U8} {earlier : List NetworkResponse}
      (latest : Option NetworkResponse) {chunk : List U8}
      (received : world.received = spelled (lines ++ [line]))
      (whole : ∀ line' ∈ lines ++ [line], asciiNewline ∉ line')
      (set : responses = earlier ++ latest.toList) (count : earlier.length = lines.length)
      (part : chunk <+: latest.toList.flatMap NetworkResponse.bytes)
      (sent : world.sent = earlier.flatMap NetworkResponse.bytes ++ chunk) :
      InOrder responses world

/-- The invariant at the program points of a connection. -/
inductive Punctual : List NetworkResponse → LetRun → World → Prop
  | reading {responses : List NetworkResponse} {context : Let} {lines : List (List U8)}
      {world : World} (received : world.received = spelled lines)
      (whole : ∀ line ∈ lines, asciiNewline ∉ line) (count : responses.length = lines.length)
      (sent : world.sent = responses.flatMap NetworkResponse.bytes) :
      Punctual responses (.reading context) world
  | processing {responses : List NetworkResponse} {context : Let} {request : NetworkRequest}
      {lines : List (List U8)} {line : List U8} {world : World}
      (received : world.received = spelled (lines ++ [line]))
      (whole : ∀ line' ∈ lines ++ [line], asciiNewline ∉ line')
      (count : responses.length = lines.length)
      (sent : world.sent = responses.flatMap NetworkResponse.bytes) :
      Punctual responses (.processing context request) world
  | responding {responses : List NetworkResponse} {context : Let} {request : NetworkRequest}
      {response : NetworkResponse} {lines : List (List U8)} {line : List U8} {world : World}
      (received : world.received = spelled (lines ++ [line]))
      (whole : ∀ line' ∈ lines ++ [line], asciiNewline ∉ line')
      (count : responses.length = lines.length)
      (sent : world.sent = responses.flatMap NetworkResponse.bytes) :
      Punctual (responses ++ [response]) (.responding context request response) world
  | ended {responses : List NetworkResponse} {point : LetRun} {world : World}
      (ended : point.Ended) (inOrder : InOrder responses world) :
      Punctual responses point world

theorem spelled_concat (lines : List (List U8)) (line : List U8) :
    spelled (lines ++ [line]) = spelled lines ++ (line ++ [asciiNewline]) := by
  simp [spelled]

section Runs

variable {responses : List NetworkResponse} {point point' : LetRun} {world world' : World}

theorem Punctual.inOrder (hpunctual : Punctual responses point world) :
    InOrder responses world := by
  cases hpunctual with
  | reading received whole count sent =>
      exact .answered (by rw [received, List.append_nil]) whole List.not_mem_nil count sent
  | processing received whole count sent =>
      exact .owing none received whole (by simp) count List.nil_prefix (by simpa using sent)
  | @responding responses _ _ response _ _ _ received whole count sent =>
      exact .owing (some response) received whole rfl count List.nil_prefix (by simpa using sent)
  | ended _ inOrder => exact inOrder

theorem forall_concat {lines : List (List U8)} {line : List U8}
    (hwhole : ∀ line ∈ lines, asciiNewline ∉ line) (hline : asciiNewline ∉ line) :
    ∀ line' ∈ lines ++ [line], asciiNewline ∉ line' := by
  intro line' hmem
  rcases List.mem_append.mp hmem with hmem | hmem
  · exact hwhole line' hmem
  · exact List.mem_singleton.mp hmem ▸ hline

theorem replies_of_ended (hended : point'.Ended) : replies responses point' = responses := by
  cases point' with
  | accepting | finished => rfl
  | reading | processing | responding => exact hended.elim

/-- What one step makes of the invariant. -/
theorem Punctual.step (hpunctual : Punctual responses point world)
    (hspoke : Spoke point world point' world') :
    Punctual (replies responses point') point' world' := by
  cases hspoke with
  | @heard context line _ _ _ newline due received sent =>
      cases hpunctual with
      | ended hended => exact hended.elim
      | @reading _ _ lines _ heard whole count replied =>
          have hreceived : world'.received = spelled (lines ++ [line]) := by
            rw [received, heard, spelled_concat]
          have hwhole := forall_concat whole newline
          rcases due with ⟨_, _, rfl⟩ | ⟨_, _, _, rfl⟩
          · exact .processing hreceived hwhole count (sent.trans replied)
          · exact .responding hreceived hwhole count (sent.trans replied)
  | unfinished newline ended received sent =>
      rw [replies_of_ended ended]
      cases hpunctual with
      | ended hended => exact hended.elim
      | reading heard whole count replied =>
          exact .ended ended (.answered (by rw [received, heard]) whole newline count
            (sent.trans replied))
  | processed same =>
      cases hpunctual with
      | ended hended => exact hended.elim
      | processing heard whole count replied =>
          exact .responding (same.received.trans heard) whole count (same.sent.trans replied)
  -- A request whose processing was fatal stays without a reply.
  | failed ended same =>
      rw [replies_of_ended ended]
      cases hpunctual with
      | ended hended => exact hended.elim
      | processing heard whole count replied =>
          refine .ended ended (.owing none (same.received.trans heard) whole (by simp) count
            List.nil_prefix ?_)
          rw [same.sent, replied, List.append_nil]
  | replied received sent =>
      cases hpunctual with
      | ended hended => exact hended.elim
      | responding heard whole count replied =>
          refine .reading (received.trans heard) whole (by simp [replies, count]) ?_
          rw [sent, replied]
          simp [replies]
  | @cut _ _ response _ _ _ _ within ended received sent =>
      rw [replies_of_ended ended]
      cases hpunctual with
      | ended hended => exact hended.elim
      | responding heard whole count replied =>
          refine .ended ended (.owing (some response) (received.trans heard) whole rfl count
            (by simpa using within) ?_)
          rw [sent, replied]

/-- What has grown and is a part of a concatenation has grown by a part of it. -/
theorem exists_growth {start middle rest : List U8} (hgrown : start <+: middle)
    (hpart : middle <+: start ++ rest) : ∃ growth, middle = start ++ growth ∧ growth <+: rest := by
  obtain ⟨growth, rfl⟩ := hgrown
  exact ⟨growth, rfl, (List.prefix_append_right_inj _).mp hpart⟩

theorem eq_of_prefixes {start middle : List U8} (hgrown : start <+: middle)
    (hpart : middle <+: start) : middle = start :=
  hpart.eq_of_length_le hgrown.length_le

/-- While a reply is sent, nothing is read. -/
theorem Punctual.responding_between {context : Let} {request : NetworkRequest}
    {response : NetworkResponse}
    (hpunctual : Punctual responses (.responding context request response) world) {middle : World}
    {chunk : List U8} (hfirst : Extends world middle)
    (hreceived : middle.received <+: world.received) (hchunk : chunk <+: response.bytes)
    (hsent : middle.sent <+: world.sent ++ chunk) : InOrder responses middle := by
  cases hpunctual with
  | ended hended => exact hended.elim
  | responding heard whole count replied =>
      have hsame : middle.received = world.received := eq_of_prefixes hfirst.received hreceived
      obtain ⟨growth, hgrowth, hpart⟩ := exists_growth hfirst.sent hsent
      have hpart' : growth <+: (some response).toList.flatMap NetworkResponse.bytes := by
        simpa using hpart.trans hchunk
      exact .owing (some response) (hsame.trans heard) whole rfl count hpart'
        (by rw [hgrowth, replied])

/-- The same at any instant of the step. -/
theorem Punctual.between (hpunctual : Punctual responses point world)
    (hspoke : Spoke point world point' world') {middle : World} (hfirst : Extends world middle)
    (hsecond : Extends middle world') : InOrder responses middle := by
  cases hspoke with
  | @heard context line _ _ _ newline due received sent =>
      cases hpunctual with
      | ended hended => exact hended.elim
      | @reading _ _ lines _ heard whole count replied =>
          have hsent : middle.sent = world.sent := eq_of_prefixes hfirst.sent (sent ▸ hsecond.sent)
          obtain ⟨growth, hgrowth, hpart⟩ :=
            exists_growth hfirst.received (received ▸ hsecond.received)
          -- Only with its newline is the line a request that is owed a reply.
          rcases List.prefix_concat_iff.mp hpart with rfl | hpart
          · refine .owing none ?_ (forall_concat whole newline) (by simp) count List.nil_prefix ?_
            · rw [hgrowth, heard, spelled_concat]
            · rw [hsent, replied, List.append_nil]
          · refine .answered (hgrowth.trans (by rw [heard])) whole ?_ count (hsent.trans replied)
            exact fun hmem => newline (hpart.subset hmem)
  | @unfinished _ rest _ _ _ newline ended received sent =>
      cases hpunctual with
      | ended hended => exact hended.elim
      | reading heard whole count replied =>
          have hsent : middle.sent = world.sent := eq_of_prefixes hfirst.sent (sent ▸ hsecond.sent)
          obtain ⟨growth, hgrowth, hpart⟩ :=
            exists_growth hfirst.received (received ▸ hsecond.received)
          refine .answered (hgrowth.trans (by rw [heard])) whole ?_ count (hsent.trans replied)
          exact fun hmem => newline (hpart.subset hmem)
  | processed same | failed _ same =>
      cases hpunctual with
      | ended hended => exact hended.elim
      | processing heard whole count replied =>
          have hsent : middle.sent = world.sent :=
            eq_of_prefixes hfirst.sent (same.sent ▸ hsecond.sent)
          have hreceived : middle.received = world.received :=
            eq_of_prefixes hfirst.received (same.received ▸ hsecond.received)
          refine .owing none (hreceived.trans heard) whole (by simp) count List.nil_prefix ?_
          rw [hsent, replied, List.append_nil]
  | @replied _ _ _ response _ _ received sent =>
      exact hpunctual.responding_between hfirst (received ▸ hsecond.received) List.prefix_rfl
        (sent ▸ hsecond.sent)
  | @cut _ _ response _ _ _ _ within ended received sent =>
      exact hpunctual.responding_between hfirst (received ▸ hsecond.received) within
        (sent ▸ hsecond.sent)

theorem Connection.reachable (hconnection : Connection steady responses point world) :
    Reachable point world := by
  induction hconnection with
  | accepted reachable stepped => exact reachable.step (returns_of_steady stepped)
  | step _ _ stepped ih => exact ih.step (returns_of_steady stepped)

/-- The run lemma of connections. -/
theorem Connection.punctual (hconnection : Connection steady responses point world) :
    Punctual responses point world := by
  induction hconnection with
  | @accepted context context' world world' _ stepped =>
      have hpassing : ∀ context' request, LetRun.accepting context ≠ .processing context' request :=
        fun _ _ heq => nomatch heq
      cases talked_of_returns hpassing (returns_of_steady stepped) with
      | ended ended => exact ended.elim
      | accepted _ received sent =>
          exact .reading (show world'.received = spelled [] from received) (by simp) rfl sent
  | step connection unended stepped ih =>
      exact ih.step (letRunStep_spoke connection.reachable unended stepped)

theorem exists_meets (hreachable : Reachable point world) (hopen : ¬point.Ended) :
    ∃ post, Meets false (fun _ => True) post (letRunStep point) world := by
  cases point with
  | accepting | finished => exact (hopen trivial).elim
  | reading context => exact ⟨_, letRunStep_reading_spec trivial⟩
  | responding context request response =>
      exact ⟨_, letRunStep_talking_spec trivial fun _ _ heq => nomatch heq⟩
  | processing context request =>
      obtain ⟨entries, hagrees⟩ := hreachable.agrees (fun _ heq => nomatch heq)
      exact ⟨_, letRunStep_processing_spec hagrees fun _ _ => trivial⟩

theorem steady_extends (call : Syscall) (honward : call.Onward) (world : World)
    (answer : call.Answer) (world' : World) (hperforms : steady.Performs call world answer world') :
    Extends world world' := by
  obtain ⟨choice, hexec⟩ := (performs_of_avoiding hperforms).1
  have hextends := honward.extends false choice world
  rwa [show call.exec false choice world = (answer, world') from hexec] at hextends

/-- As long as no send is interrupted or sends nothing, the replies on a
connection are in order at every instant. -/
theorem replies_in_order (hinstant : OnConnection steady responses world) :
    InOrder responses world := by
  cases hinstant with
  | point connection => exact connection.punctual.inOrder
  | @within point start _ connection unended passes =>
      obtain ⟨post, hmeets⟩ := exists_meets connection.reachable unended
      have honward : (letRunStep point).Uses Syscall.Onward :=
        onward_letRunStep fun context heq => unended (by rw [heq]; trivial)
      obtain ⟨hfirst, point', world', hreturn, hsecond⟩ :=
        (ensures_steady hmeets).between steady_extends honward passes
      exact connection.punctual.between
        (letRunStep_spoke connection.reachable unended hreturn) hfirst hsecond

end Runs

/-! ## Computed connections -/

/-- Where the first connection to a new server comes to in some steps, with the
replies set on the way. -/
def conversed (machine : Machine host World)
    (policy : (call : host.Op) → World → machine.Choice call) :
    Nat → Option (List NetworkResponse × LetRun × World)
  | 0 =>
      match machine.run policy 10000 (letRunStep (.accepting freshContext)) freshWorld with
      | some (.reading context, world) => some ([], .reading context, world)
      | _ => none
  | steps + 1 =>
      match conversed machine policy steps with
      | none | some (_, .accepting _, _) | some (_, .finished _, _) => none
      | some (responses, point, world) =>
          (machine.run policy 10000 (letRunStep point) world).map fun (point', world') =>
            (replies responses point', point', world')

theorem connection_of_conversed {machine : Machine host World}
    {policy : (call : host.Op) → World → machine.Choice call} {steps : Nat}
    {responses : List NetworkResponse} {point : LetRun} {world : World}
    (hconversed : conversed machine policy steps = some (responses, point, world)) :
    Connection machine responses point world := by
  induction steps generalizing responses point world with
  | zero =>
      rw [conversed] at hconversed
      split at hconversed
      next context world' hrun =>
        cases hconversed
        exact .accepted reachable_fresh (returns_of_run hrun)
      next => nomatch hconversed
  | succ steps ih =>
      rw [conversed] at hconversed
      split at hconversed
      next => nomatch hconversed
      next => nomatch hconversed
      next => nomatch hconversed
      next responses' point' world' haccepting hfinished hbefore =>
        obtain ⟨⟨point'', world''⟩, hrun, heq⟩ := Option.map_eq_some_iff.mp hconversed
        cases heq
        refine .step (ih hbefore) ?_ (returns_of_run hrun)
        cases point' with
        | accepting context => exact (haccepting _ rfl).elim
        | finished context => exact (hfinished _ rfl).elim
        | reading | processing | responding => exact id

/-- The environment in which every call succeeds is a steady one. -/
def steadyObliging (input : List U8) (call : host.Op) (world : World) : steady.Choice call :=
  ⟨obliging input call world, by
    intro world' hunreported
    cases call with
    | send bytes =>
        rcases hunreported with heq | ⟨hnonempty, heq⟩
        · nomatch heq
        · have hzero : (bytes.take bytes.length).length = 0 := SendResult.sent.inj heq
          rw [List.take_length] at hzero
          exact hnonempty (List.length_eq_zero_iff.mp hzero)
    | _ => exact hunreported⟩

/-- Two lines, and two replies. -/
theorem replies_in_order_twice : ∃ responses point world,
    conversed steady (steadyObliging [0x23, 0x0A, 0x3B, 0x0A]) 6 = some (responses, point, world) ∧
      responses.length = 2 ∧ InOrder responses world := by
  have hconversed : ((conversed steady (steadyObliging [0x23, 0x0A, 0x3B, 0x0A]) 6).map
      fun (responses, _, _) => responses.length) = some 2 := by decide +kernel
  obtain ⟨⟨responses, point, world⟩, hconversed, hlength⟩ := Option.map_eq_some_iff.mp hconversed
  exact ⟨responses, point, world, hconversed, hlength,
    replies_in_order (.point (connection_of_conversed hconversed))⟩

/-- An environment in which the first send takes three bytes and a termination
signal interrupts the second one, and otherwise every call succeeds. -/
def interrupting (input : List U8) : (call : host.Op) → World → (system false).Choice call
  | .send bytes, world =>
      if world.sent = [] then SendResult.sent 3
      else if world.received.length = 2 then SendResult.interrupted
      else SendResult.sent bytes.length
  | .setExecuting _, world => decide (world.sent.length = 3)
  | call, world => obliging input call world

/-- After the first three bytes of a reply the next line is read and answered. -/
theorem not_inOrder_interrupted : ∃ responses world,
    OnConnection (system false) responses world ∧ ¬InOrder responses world := by
  have hconversed : ((conversed (system false) (interrupting [0x23, 0x0A, 0x3B, 0x0A]) 6).map
      fun (responses, _, world) => (responses, world.sent)) =
      some ([.countDatabase 0 0, .magic], ascii ['L', 'E', 'N', 'L', 'E', 'T', '\n']) := by
    decide +kernel
  obtain ⟨⟨responses, point, world⟩, hconversed, hend⟩ := Option.map_eq_some_iff.mp hconversed
  obtain ⟨rfl, hsent⟩ := Prod.mk.inj hend
  clear hend
  refine ⟨_, world, .point (connection_of_conversed hconversed), fun hinOrder => ?_⟩
  -- the second reply stands behind three bytes of the first
  have hfirst : ¬(NetworkResponse.countDatabase 0 0).bytes <+:
      ascii ['L', 'E', 'N', 'L', 'E', 'T', '\n'] := by decide
  cases hinOrder with
  | answered _ _ _ _ sent =>
      rw [hsent] at sent
      exact hfirst (sent ▸ List.prefix_append _ _)
  | @owing _ _ earlier latest chunk _ _ set _ part sent =>
      rw [hsent] at sent
      cases earlier with
      | nil =>
          have hlength := congrArg List.length set
          cases latest <;> simp at hlength
      | cons response earlier =>
          obtain ⟨rfl, _⟩ := List.cons.inj set
          rw [List.flatMap_cons, List.append_assoc] at sent
          exact hfirst (sent ▸ List.prefix_append _ _)

end LetDX.LetDB
