import LetDX.LetDB.Host
import LetDX.LetDB.Network.Request
import LetDX.LetDB.Network.Response

/-! # The sockets of the server -/

namespace LetDX.LetDB

open Effects

def networkBufferLength : Nat := 128

def networkServerInit (port backlog : U16) : Proc Error := do
  if ← Proc.socket then
    if ← Proc.bind port then
      if ← Proc.listen backlog then return .none
      else
        Proc.closeSocket
        return .network .serverListenFailed
    else
      Proc.closeSocket
      return .network .serverBindFailed
  else return .network .serverCreateFailed

def networkServerAccept : Proc Error := do
  match ← Proc.accept with
  | .handle _ => return .none
  | .interrupted => return .network .serverClosed
  | .failed => return .network .serverAcceptFailed

/-! ## Reading a request -/

/-- The variables of the reading loop: the filled part of the buffer and the
byte read last. -/
structure NetworkClientRead where
  readBuffer : List U8
  readByte : U8
  deriving DecidableEq, Repr

/-- One round of the loop, from its condition. -/
def networkClientReadRound (loop : NetworkClientRead) :
    Proc (NetworkClientRead ⊕ Except Error NetworkClientRead) :=
  if loop.readBuffer.length < networkBufferLength then do
    match ← Proc.recv with
    | .closed => return .inr (.error (.network .clientClosed))
    | .wouldBlock => return .inr (.error (.network .serverReadTimeout))
    | .interrupted => return .inr (.error (.network .serverClosed))
    | .failed => return .inr (.error (.network .serverReadFailed))
    | .byte readByte =>
        if readByte = asciiNewline then
          return .inr (.ok { readBuffer := loop.readBuffer ++ [asciiSpace], readByte })
        else return .inl { readBuffer := loop.readBuffer ++ [readByte], readByte }
  else return .inr (.ok loop)

def networkClientRead (request : NetworkRequest) : Proc (Error × NetworkRequest) := do
  match ← Program.iterate networkClientReadRound { readBuffer := [], readByte := 0 } with
  | .error error => return (error, request)
  | .ok loop =>
      if loop.readBuffer.length = networkBufferLength ∧ loop.readByte ≠ asciiNewline then
        return (.network .requestBufferOverflow, request)
      else return networkRequestDecode loop.readBuffer request

/-! ## Writing a response -/

/-- One round of the sending loop, with the bytes of the response that remain. -/
def networkClientWriteRound (remaining : List U8) : Proc (List U8 ⊕ Error) :=
  if remaining = [] then return .inr .none
  else do
    match ← Proc.send remaining with
    | .sent sentBytes =>
        if sentBytes = 0 then return .inr (.network .clientClosed)
        else return .inl (remaining.drop sentBytes)
    | .wouldBlock => return .inr (.network .serverWriteTimeout)
    | .interrupted => return .inr (.network .serverClosed)
    | .failed => return .inr (.network .serverWriteFailed)

/-- The encoder must not write past the buffer. -/
def networkClientWrite (response : NetworkResponse) : Proc Error :=
  let (error, written) := networkResponseEncoderRun response networkBufferLength
  if written.length > networkBufferLength then .fault
  else if errorExists error then return error
  else Program.iterate networkClientWriteRound written

section Rules

variable {reliable : Bool} {during : Durable.Disk → Prop} {world : World}

/-! ## The sockets do not touch the disk -/

theorem networkServerInit_spec {port backlog : U16} {post : Error → World → Prop}
    (hduring : during world.disk)
    (hpost : ∀ error world', world'.disk = world.disk → post error world') :
    Meets reliable during post (networkServerInit port backlog) world := by
  have hclose : ∀ error world', world'.disk = world.disk →
      Meets reliable during post (do Proc.closeSocket; return error) world' := by
    intro error world' hdisk
    have hduring' : during world'.disk := hdisk ▸ hduring
    exact .bind (Proc.closeSocket_spec hduring' (.pure hduring' (hpost _ _ hdisk)))
  refine .bind (Proc.distant_spec .socket trivial hduring ?_)
  intro creates world₁ hdisk₁
  cases (creates : Bool) with
  | false => exact .pure (hdisk₁ ▸ hduring) (hpost _ _ hdisk₁)
  | true =>
      refine .bind (Proc.distant_spec (.bind port) trivial (hdisk₁ ▸ hduring) ?_)
      intro binds world₂ hdisk₂
      rw [hdisk₁] at hdisk₂
      cases (binds : Bool) with
      | false => exact hclose _ _ hdisk₂
      | true =>
          refine .bind (Proc.distant_spec (.listen backlog) trivial (hdisk₂ ▸ hduring) ?_)
          intro listens world₃ hdisk₃
          rw [hdisk₂] at hdisk₃
          cases (listens : Bool) with
          | false => exact hclose _ _ hdisk₃
          | true => exact .pure (hdisk₃ ▸ hduring) (hpost _ _ hdisk₃)

theorem networkServerAccept_spec {post : Error → World → Prop} (hduring : during world.disk)
    (haccepted : post .none { world with received := [], sent := [] })
    (hfailed : ∀ error, errorExists error → post error world) :
    Meets reliable during post networkServerAccept world := by
  refine .bind (Proc.accept_spec hduring ?_ ?_)
  · intro handle
    exact .pure hduring haccepted
  · intro result hno
    cases result with
    | handle handle => exact (hno handle rfl).elim
    | interrupted => exact .pure hduring (hfailed _ rfl)
    | failed => exact .pure hduring (hfailed _ rfl)

/-- Reading stops at the first newline, or when the buffer is full, or with an
error of the connection. -/
theorem networkClientReadLoop_spec {post : Except Error NetworkClientRead → World → Prop}
    (hduring : during world.disk)
    (hline : ∀ line, asciiNewline ∉ line →
      post (.ok { readBuffer := line ++ [asciiSpace], readByte := asciiNewline })
        { world with received := world.received ++ line ++ [asciiNewline] })
    (hfull : ∀ loop : NetworkClientRead, loop.readBuffer.length = networkBufferLength →
      loop.readByte ≠ asciiNewline → asciiNewline ∉ loop.readBuffer →
      post (.ok loop) { world with received := world.received ++ loop.readBuffer })
    (hfailed : ∀ error line, asciiNewline ∉ line →
      (errorReport error).action = .ignore ∨ (errorReport error).action = .close →
      post (.error error) { world with received := world.received ++ line }) :
    Meets reliable during post
      (Program.iterate networkClientReadRound { readBuffer := [], readByte := 0 }) world := by
  let invariant (loop : NetworkClientRead) (world' : World) : Prop :=
    world' = { world with received := world.received ++ loop.readBuffer } ∧
      asciiNewline ∉ loop.readBuffer ∧ loop.readByte ≠ asciiNewline ∧
      loop.readBuffer.length ≤ networkBufferLength
  refine .iterate invariant (fun loop _ => networkBufferLength - loop.readBuffer.length) ?_
    ⟨by rw [List.append_nil], by simp, by decide, Nat.zero_le _⟩
  rintro ⟨readBuffer, readByte⟩ world' ⟨rfl, hline', hbyte, hlength⟩
  dsimp only at hline' hbyte hlength ⊢
  unfold networkClientReadRound
  dsimp only
  by_cases hroom : readBuffer.length < networkBufferLength
  · rw [if_pos hroom]
    refine .bind (Proc.recv_spec hduring ?_ ?_)
    · intro byte
      dsimp only
      split
      next hnewline =>
        subst hnewline
        exact .pure hduring (hline _ hline')
      next hother =>
        refine .pure hduring ⟨⟨?_, ?_, hother, ?_⟩, ?_⟩
        · simp
        · simpa [hline'] using fun h => hother h.symm
        · rw [List.length_append, List.length_singleton]
          exact hroom
        · simp only [List.length_append, List.length_singleton]
          omega
    · intro result hno
      cases result with
      | byte byte => exact (hno byte rfl).elim
      | closed => exact .pure hduring (hfailed _ _ hline' (.inl rfl))
      | wouldBlock => exact .pure hduring (hfailed _ _ hline' (.inr rfl))
      | interrupted => exact .pure hduring (hfailed _ _ hline' (.inl rfl))
      | failed => exact .pure hduring (hfailed _ _ hline' (.inr rfl))
  · rw [if_neg hroom]
    exact .pure hduring (hfull _ (Nat.le_antisymm hlength (Nat.not_lt.mp hroom)) hbyte hline')

theorem networkClientRead_spec {request : NetworkRequest}
    {post : Error × NetworkRequest → World → Prop} (hduring : during world.disk)
    (hline : ∀ line, asciiNewline ∉ line →
      post (networkRequestDecode (line ++ [asciiSpace]) request)
        { world with received := world.received ++ line ++ [asciiNewline] })
    (hfailed : ∀ error line, asciiNewline ∉ line →
      (errorReport error).action = .ignore ∨ (errorReport error).action = .close →
      post (error, request) { world with received := world.received ++ line }) :
    Meets reliable during post (networkClientRead request) world := by
  refine .bind (networkClientReadLoop_spec hduring ?_ ?_ ?_)
  · intro line hnewline
    dsimp only
    rw [if_neg (fun h => h.2 rfl)]
    exact .pure hduring (hline line hnewline)
  · intro loop hlength hbyte hline'
    dsimp only
    rw [if_pos ⟨hlength, hbyte⟩]
    exact .pure hduring (hfailed _ _ hline' (.inr rfl))
  · intro error line hline' haction
    exact .pure hduring (hfailed error line hline' haction)

/-- Why the sending loop stops. Only the end of the connection and an interruption
are not reported as errors that close it. -/
inductive WriteStopped (machine : Machine host World) : Error → Prop
  | sent : WriteStopped machine .none
  | closed {bytes : List U8} {world world' : World} (nonempty : bytes ≠ [])
      (performs : machine.Performs (.send bytes) world (SendResult.sent 0) world') :
      WriteStopped machine (.network .clientClosed)
  | interrupted {bytes : List U8} {world world' : World}
      (performs : machine.Performs (.send bytes) world SendResult.interrupted world') :
      WriteStopped machine (.network .serverClosed)
  | failed {error : Error} (action : (errorReport error).action = .close) :
      WriteStopped machine error

/-- Some prefix of the bytes is sent, and all of them unless there is an error. -/
theorem networkClientWriteLoop_stopped {machine : Machine host World} {during : World → Prop}
    (hanswers : ∀ bytes world, ∃ answer world', machine.Performs (.send bytes) world answer world')
    (hperforms : ∀ bytes world answer world', machine.Performs (.send bytes) world answer world' →
      (system false).Performs (.send bytes) world answer world')
    {remaining : List U8} {post : Error → World → Prop}
    (hduring : ∀ chunk, chunk <+: remaining → during { world with sent := world.sent ++ chunk })
    (hpost : ∀ error chunk, chunk <+: remaining → (error = .none → chunk = remaining) →
      WriteStopped machine error → post error { world with sent := world.sent ++ chunk }) :
    machine.Ensures during post (Program.iterate networkClientWriteRound remaining) world := by
  -- What was sent and what remains make up the response.
  let invariant (rest : List U8) (world' : World) : Prop :=
    ∃ chunk, remaining = chunk ++ rest ∧ world' = { world with sent := world.sent ++ chunk }
  refine .iterate invariant (fun rest _ => rest.length) ?_ ⟨[], rfl, by rw [List.append_nil]⟩
  rintro rest world' ⟨chunk, rfl, rfl⟩
  have hinstant : during { world with sent := world.sent ++ chunk } :=
    hduring chunk (List.prefix_append _ _)
  have hstopped (error : Error) (herror : error ≠ .none) (hstopped : WriteStopped machine error) :
      post error { world with sent := world.sent ++ chunk } :=
    hpost error chunk (List.prefix_append _ _) (fun hnone => (herror hnone).elim) hstopped
  unfold networkClientWriteRound
  by_cases hempty : rest = []
  · subst hempty
    rw [if_pos rfl]
    refine .pure hinstant (hpost .none chunk (List.prefix_append _ _) ?_ .sent)
    exact fun _ => by rw [List.append_nil]
  rw [if_neg hempty]
  refine .bind (.call hinstant (hanswers _ _) ?_)
  intro answer world₁ hsent
  obtain ⟨choice, hexec⟩ := hperforms _ _ _ _ hsent
  cases (choice : SendResult) with
  | wouldBlock =>
      obtain ⟨rfl, rfl⟩ := Prod.mk.inj hexec
      exact .pure hinstant (.pure hinstant (hstopped _ (fun heq => nomatch heq) (.failed rfl)))
  | interrupted =>
      obtain ⟨rfl, rfl⟩ := Prod.mk.inj hexec
      exact .pure hinstant
        (.pure hinstant (hstopped _ (fun heq => nomatch heq) (.interrupted hsent)))
  | failed =>
      obtain ⟨rfl, rfl⟩ := Prod.mk.inj hexec
      exact .pure hinstant (.pure hinstant (hstopped _ (fun heq => nomatch heq) (.failed rfl)))
  | sent count =>
      obtain ⟨rfl, rfl⟩ := Prod.mk.inj hexec
      have hlength : (rest.take count).length ≤ rest.length := List.length_take_le' _ _
      have hsplit : rest.take count ++ rest.drop (rest.take count).length = rest := by
        rcases Nat.le_total count rest.length with hle | hle
        · rw [List.length_take_of_le hle, List.take_append_drop]
        · rw [List.take_of_length_le hle, List.drop_length, List.append_nil]
      have hmore : during { world with sent := world.sent ++ chunk ++ rest.take count } := by
        rw [List.append_assoc]
        apply hduring
        exact List.prefix_append_right_inj _ |>.mpr (List.take_prefix _ _)
      refine .pure hmore ?_
      dsimp only
      split
      next hzero =>
        have hnone : rest.take count = [] := List.length_eq_zero_iff.mp hzero
        rw [hnone] at hsent hmore ⊢
        rw [List.append_nil] at hmore ⊢
        exact .pure hmore (hstopped _ (fun heq => nomatch heq) (.closed hempty hsent))
      next hpositive =>
        refine .pure hmore ⟨⟨chunk ++ rest.take count, ?_, ?_⟩, ?_⟩
        · rw [List.append_assoc, hsplit]
        · rw [List.append_assoc]
        · rw [List.length_drop]
          omega

/-- The same on the system, where any of these may happen. -/
theorem networkClientWriteLoop_spec {remaining : List U8} {post : Error → World → Prop}
    (hduring : during world.disk)
    (hpost : ∀ error chunk, chunk <+: remaining → (error = .none → chunk = remaining) →
      post error { world with sent := world.sent ++ chunk }) :
    Meets reliable during post (Program.iterate networkClientWriteRound remaining) world := by
  apply networkClientWriteLoop_stopped
  · exact fun bytes world => ⟨_, _, (SendResult.failed : (Syscall.send bytes).Choice), rfl⟩
  · exact fun _ _ _ _ hsent => hsent
  · exact fun _ _ => hduring
  · exact fun error chunk hchunk hwhole _ => hpost error chunk hchunk hwhole

/-- The line of a response with its newline. -/
def NetworkResponse.bytes (response : NetworkResponse) : List U8 :=
  (networkResponseEncoderRun response networkBufferLength).2

theorem networkClientWrite_spec {response : NetworkResponse} {post : Error → World → Prop}
    (hduring : during world.disk)
    (hpost : ∀ error chunk, chunk <+: response.bytes → (error = .none → chunk = response.bytes) →
      post error { world with sent := world.sent ++ chunk }) :
    Meets reliable during post (networkClientWrite response) world := by
  have hlength : (networkResponseEncoderRun response networkBufferLength).2.length ≤
      networkBufferLength := length_networkResponseEncoderRun_le _ _
  unfold networkClientWrite
  dsimp only
  rw [if_neg (Nat.not_lt.mpr hlength)]
  split
  next hexists =>
    refine .pure hduring ?_
    have hunsent := hpost (networkResponseEncoderRun response networkBufferLength).1 []
      List.nil_prefix ?_
    · simpa using hunsent
    · intro hnone
      rw [hnone] at hexists
      nomatch hexists
  · exact networkClientWriteLoop_spec hduring hpost

end Rules

end LetDX.LetDB
