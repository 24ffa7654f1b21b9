import LetDX.LetDB.Network.Decoding
import LetDX.LetDB.Network.Server

/-! # Reading requests from a connection

On a connection on which a client sends canonical lines, the server reads one
request for each of them and no byte more.
-/

namespace LetDX.LetDB

open Bytes Effects

/-- As many requests as this, read one after the other. -/
def networkClientReads : Nat → Proc (List (Error × NetworkRequest))
  | 0 => return []
  | count + 1 => do
      let result ← networkClientRead networkRequestEmpty
      let results ← networkClientReads count
      return result :: results

/-- The server, on a connection on which the client sends this input. -/
def connected (input : List U8) : Machine host World :=
  (system false).under (obliging input)

section Reading

variable {input : List U8} {world : World}

theorem recv_spec {byte : U8} {rest : List U8} {post : RecvResult → World → Prop}
    (hinput : world.received ++ byte :: rest = input)
    (hpost : post (.byte byte) { world with received := world.received ++ [byte] }) :
    (connected input).Ensures (fun _ => True) post Proc.recv world := by
  have hnext : input[world.received.length]? = some byte := by
    rw [← hinput, List.getElem?_append_right (Nat.le_refl _), Nat.sub_self]
    rfl
  have hchoice : obliging input .recv world = RecvResult.byte byte := by
    simp only [obliging]
    rw [hnext]
  have hexec : (connected input).exec .recv () world =
      (RecvResult.byte byte, { world with received := world.received ++ [byte] }) := by
    change Syscall.exec false .recv (obliging input .recv world) world = _
    rw [hchoice]
    rfl
  refine .call trivial ⟨_, _, (), rfl⟩ ?_
  rintro answer world' ⟨choice, hperformed⟩
  obtain ⟨rfl, rfl⟩ := Prod.mk.inj (hexec.symm.trans hperformed)
  exact .pure trivial hpost

/-- Reading a line up to its newline. -/
theorem networkClientReadLoop_line {line rest : List U8}
    {post : Except Error NetworkClientRead → World → Prop}
    (hinput : world.received ++ (line ++ asciiNewline :: rest) = input)
    (hline : asciiNewline ∉ line) (hlength : line.length < networkBufferLength)
    (hpost : post (.ok { readBuffer := line ++ [asciiSpace], readByte := asciiNewline })
      { world with received := world.received ++ line ++ [asciiNewline] }) :
    (connected input).Ensures (fun _ => True) post
      (Program.iterate networkClientReadRound { readBuffer := [], readByte := 0 }) world := by
  -- What is in the buffer and what is still to come make up the line.
  let invariant (loop : NetworkClientRead) (world' : World) : Prop :=
    ∃ todo, line = loop.readBuffer ++ todo ∧
      world' = { world with received := world.received ++ loop.readBuffer }
  refine .iterate invariant (fun loop _ => line.length - loop.readBuffer.length) ?_
    ⟨line, rfl, by rw [List.append_nil]⟩
  rintro ⟨done, readByte⟩ world' ⟨todo, rfl, rfl⟩
  dsimp only at hinput hline hlength hpost ⊢
  rw [List.length_append] at hlength
  have hroom : done.length < networkBufferLength := by omega
  unfold networkClientReadRound
  dsimp only
  rw [if_pos hroom]
  apply Machine.Ensures.bind
  cases todo with
  | nil =>
      rw [List.append_nil] at hinput hpost
      have hinput' : world.received ++ done ++ asciiNewline :: rest = input := by
        rwa [List.append_assoc]
      apply recv_spec hinput'
      dsimp only
      rw [if_pos rfl]
      exact .pure trivial hpost
  | cons byte todo =>
      have hinput' : world.received ++ done ++ byte :: (todo ++ asciiNewline :: rest) = input := by
        rw [← hinput]
        simp
      have hbyte : byte ≠ asciiNewline := by
        rintro rfl
        exact hline (by simp)
      apply recv_spec hinput'
      dsimp only
      rw [if_neg hbyte]
      refine .pure trivial ⟨⟨todo, by simp, ?_⟩, ?_⟩
      · rw [List.append_assoc]
      · simp
        omega

theorem networkClientRead_line {line rest : List U8} {request : NetworkRequest}
    {post : Error × NetworkRequest → World → Prop}
    (hinput : world.received ++ (line ++ asciiNewline :: rest) = input)
    (hline : asciiNewline ∉ line) (hlength : line.length < networkBufferLength)
    (hpost : post (networkRequestDecode (line ++ [asciiSpace]) request)
      { world with received := world.received ++ line ++ [asciiNewline] }) :
    (connected input).Ensures (fun _ => True) post (networkClientRead request) world := by
  apply Machine.Ensures.bind
  apply networkClientReadLoop_line hinput hline hlength
  dsimp only
  rw [if_neg (fun h => h.2 rfl)]
  exact .pure trivial hpost

/-- A canonical line is read as its request. -/
theorem networkClientRead_request {rest : List U8} {request output : NetworkRequest}
    {post : Error × NetworkRequest → World → Prop}
    (hinput : world.received ++ (request.line ++ asciiNewline :: rest) = input)
    (hpost : post (.none, request)
      { world with received := world.received ++ request.line ++ [asciiNewline] }) :
    (connected input).Ensures (fun _ => True) post (networkClientRead output) world := by
  have hlength : request.line.length < networkBufferLength :=
    request.length_line_le.trans_lt (by decide)
  apply networkClientRead_line hinput request.newline_notMem_line hlength
  rw [networkRequestDecode, networkRequestDecoderRun_line]
  exact hpost

theorem networkClientReads_requests (requests : List NetworkRequest) (rest : List U8)
    {post : List (Error × NetworkRequest) → World → Prop}
    (hinput : world.received ++
      ((requests.map fun request => request.line ++ [asciiNewline]).flatten ++ rest) = input)
    (hpost : post (requests.map fun request => (Error.none, request))
      { world with
        received := world.received ++
          (requests.map fun request => request.line ++ [asciiNewline]).flatten }) :
    (connected input).Ensures (fun _ => True) post (networkClientReads requests.length) world := by
  induction requests generalizing world post with
  | nil =>
      simp only [List.map_nil, List.flatten_nil, List.append_nil] at hpost
      exact .pure trivial hpost
  | cons request requests ih =>
      have hfirst : world.received ++ (request.line ++ asciiNewline ::
          ((requests.map fun request => request.line ++ [asciiNewline]).flatten ++ rest)) =
          input := by
        rw [← hinput]
        simp
      apply Machine.Ensures.bind
      apply networkClientRead_request hfirst
      apply Machine.Ensures.bind
      apply ih
      · rw [← hinput]
        simp
      · refine .pure trivial ?_
        simpa using hpost

end Reading

end LetDX.LetDB
