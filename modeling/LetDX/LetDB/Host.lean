import LetDX.Common
import LetDX.Durable.Disk
import LetDX.Effects.Ensures

/-! # The operating system under the server

The calls the server makes and what the system may do with each: the clock, the
allocator, one storage file with its cursor, the sockets, and the two flags that
the signal handler shares with the loops. Every outcome of every call is
possible, unless the machine is the reliable one, on which the clock, the
allocator and the file calls succeed whenever they can.
-/

namespace LetDX.LetDB

open Durable Effects

/-- `let_storage_wal_seek_t` -/
inductive StorageWalSeek
  | start
  | current
  | end
  deriving DecidableEq, Repr

inductive OpenResult
  | opened
  | exists
  | failed
  deriving DecidableEq, Repr

inductive AcceptResult
  | handle (handle : Nat)
  | interrupted
  | failed
  deriving DecidableEq, Repr

inductive RecvResult
  | byte (byte : U8)
  | closed
  | wouldBlock
  | interrupted
  | failed
  deriving DecidableEq, Repr

inductive SendResult
  | sent (count : Nat)
  | wouldBlock
  | interrupted
  | failed
  deriving DecidableEq, Repr

inductive Syscall
  | time
  | malloc (bytes : U64)
  | realloc (bytes : U64)
  | openExclusive
  | openExisting
  | read (count : Nat)
  | write (bytes : List U8)
  | fsync
  | lseek (offset : Nat) (seek : StorageWalSeek)
  | ftruncate (offset : Nat)
  | closeFile
  | socket
  | bind (port : U16)
  | listen (backlog : U16)
  | accept
  | recv
  | send (bytes : List U8)
  | closeSocket
  | getAccepting
  | getExecuting
  | setAccepting (value : Bool)
  | setExecuting (value : Bool)

def Syscall.Answer : Syscall → Type
  | .time => Time
  | .openExclusive => OpenResult
  | .read _ => Option (List U8)
  | .write _ => Option Nat
  | .accept => AcceptResult
  | .recv => RecvResult
  | .send _ => SendResult
  | .closeFile | .closeSocket | .setAccepting _ | .setExecuting _ => Unit
  | _ => Bool

abbrev host : Interface := ⟨Syscall, Syscall.Answer⟩

abbrev Proc := Program host

namespace Proc

open Program

def time : Proc Time := perform (I := host) .time
def malloc (bytes : U64) : Proc Bool := perform (I := host) (.malloc bytes)
def realloc (bytes : U64) : Proc Bool := perform (I := host) (.realloc bytes)
def openExclusive : Proc OpenResult := perform (I := host) .openExclusive
def openExisting : Proc Bool := perform (I := host) .openExisting
def read (count : Nat) : Proc (Option (List U8)) := perform (I := host) (.read count)
def write (bytes : List U8) : Proc (Option Nat) := perform (I := host) (.write bytes)
def fsync : Proc Bool := perform (I := host) .fsync
def lseek (offset : Nat) (seek : StorageWalSeek) : Proc Bool :=
  perform (I := host) (.lseek offset seek)
def ftruncate (offset : Nat) : Proc Bool := perform (I := host) (.ftruncate offset)
def closeFile : Proc Unit := perform (I := host) .closeFile
def socket : Proc Bool := perform (I := host) .socket
def bind (port : U16) : Proc Bool := perform (I := host) (.bind port)
def listen (backlog : U16) : Proc Bool := perform (I := host) (.listen backlog)
def accept : Proc AcceptResult := perform (I := host) .accept
def recv : Proc RecvResult := perform (I := host) .recv
def send (bytes : List U8) : Proc SendResult := perform (I := host) (.send bytes)
def closeSocket : Proc Unit := perform (I := host) .closeSocket
def getAccepting : Proc Bool := perform (I := host) .getAccepting
def getExecuting : Proc Bool := perform (I := host) .getExecuting
def setAccepting (value : Bool) : Proc Unit := perform (I := host) (.setAccepting value)
def setExecuting (value : Bool) : Proc Unit := perform (I := host) (.setExecuting value)

end Proc

/-- The storage file, the two flags, and the bytes received and sent on the
current connection. -/
structure World where
  disk : Disk := {}
  accepting : Bool := false
  executing : Bool := false
  received : List U8 := []
  sent : List U8 := []
  deriving DecidableEq, Repr

/-- The largest size an allocation may have. -/
def allocationMax : Nat := 2 ^ 63 - 1

/-- `let_close`, the handler of the termination signals. -/
def close (world : World) : World :=
  { world with executing := false, accepting := false }

/-- What the environment decides about a call. A write decides how many bytes
reach the file and whether it reports that number or an error; an access to the
flags decides whether a signal was handled just before it. -/
def Syscall.Choice : Syscall → Type
  | .time => Time
  | .write _ => Nat × Bool
  | .accept => AcceptResult
  | .recv => RecvResult
  | .send _ => SendResult
  | .closeFile | .closeSocket => Unit
  | _ => Bool

/-- The world in which the program continues, after the signal if there was one. -/
def World.interrupt (world : World) (signalled : Bool) : World :=
  if signalled then close world else world

/-- The effect of a call. On the reliable machine the clock, the allocator and
the file calls succeed. -/
def Syscall.exec (reliable : Bool) : (call : Syscall) → call.Choice → World → call.Answer × World
  | .time, (now : Time), world =>
      (if reliable && now = Time.failed then (0 : Time) else now, world)
  | .malloc bytes, (granted : Bool), world =>
      (reliable || granted && decide (bytes.toNat ≤ allocationMax), world)
  | .realloc bytes, (granted : Bool), world =>
      (reliable || granted && decide (bytes.toNat ≤ allocationMax), world)
  | .openExclusive, (opens : Bool), world =>
      if opens || reliable then
        match world.disk.file with
        | none => (OpenResult.opened, { world with disk := .create })
        | some _ => (OpenResult.exists, world)
      else (OpenResult.failed, world)
  | .openExisting, (opens : Bool), world =>
      if (opens || reliable) && world.disk.file.isSome then
        (true, { world with disk := world.disk.seek 0 })
      else (false, world)
  | .read count, (reads : Bool), world =>
      if reads || reliable then
        let data := world.disk.peek count
        (some data, { world with disk := world.disk.seek (world.disk.cursor + data.length) })
      else (none, world)
  | .write bytes, ((count, reports) : Nat × Bool), world =>
      let data := bytes.take
        (min (if reliable then bytes.length else count) (Disk.offsetMax - world.disk.cursor))
      (if reports || reliable then some data.length else none,
        { world with disk := world.disk.put data })
  | .fsync, (syncs : Bool), world =>
      if syncs || reliable then (true, { world with disk := world.disk.sync })
      else (false, world)
  | .lseek offset seek, (seeks : Bool), world =>
      if seeks || reliable then
        (true, { world with disk := world.disk.seek (match seek with
          | .start => offset
          | .current => world.disk.cursor + offset
          | .end => world.disk.bytes.length + offset) })
      else (false, world)
  | .ftruncate offset, (truncates : Bool), world =>
      if truncates || reliable then (true, { world with disk := world.disk.truncate offset })
      else (false, world)
  | .closeFile, _, world => ((), world)
  | .socket, (creates : Bool), world => (creates, world)
  | .bind _, (binds : Bool), world => (binds, world)
  | .listen _, (listens : Bool), world => (listens, world)
  | .accept, (result : AcceptResult), world =>
      match result with
      | .handle _ => (result, { world with received := [], sent := [] })
      | _ => (result, world)
  | .recv, (result : RecvResult), world =>
      match result with
      | .byte byte => (result, { world with received := world.received ++ [byte] })
      | _ => (result, world)
  | .send bytes, (result : SendResult), world =>
      match result with
      | .sent count =>
          let data := bytes.take count
          (SendResult.sent data.length, { world with sent := world.sent ++ data })
      | _ => (result, world)
  | .closeSocket, _, world => ((), world)
  | .getAccepting, (signalled : Bool), world =>
      let world := world.interrupt signalled
      (world.accepting, world)
  | .getExecuting, (signalled : Bool), world =>
      let world := world.interrupt signalled
      (world.executing, world)
  | .setAccepting value, (signalled : Bool), world =>
      ((), { world.interrupt signalled with accepting := value })
  | .setExecuting value, (signalled : Bool), world =>
      ((), { world.interrupt signalled with executing := value })

/-- The system, with every outcome of every call, or the reliable one. -/
def system (reliable : Bool) : Machine host World where
  Choice := Syscall.Choice
  exec := Syscall.exec reliable

/-- An environment in which every call succeeds, no signal comes, and a client
sends this input and then closes the connection. -/
def obliging (input : List U8) : (call : Syscall) → World → call.Choice
  | .time, _ => (1 : Time)
  | .write bytes, _ => (bytes.length, true)
  | .accept, _ => AcceptResult.handle 4
  | .recv, world =>
      match input[world.received.length]? with
      | some byte => RecvResult.byte byte
      | none => RecvResult.closed
  | .send bytes, _ => SendResult.sent bytes.length
  | .closeFile, _ | .closeSocket, _ => ()
  | .getAccepting, _ | .getExecuting, _ | .setAccepting _, _ | .setExecuting _, _ => false
  | .malloc _, _ | .realloc _, _ | .openExclusive, _ | .openExisting, _ | .read _, _ | .fsync, _
  | .lseek .., _ | .ftruncate _, _ | .socket, _ | .bind _, _ | .listen _, _ => true

/-- Total correctness of a procedure, with what holds of the disk at every instant. -/
abbrev Meets {α : Type} (reliable : Bool) (during : Disk → Prop) (post : α → World → Prop)
    (program : Proc α) (world : World) : Prop :=
  (system reliable).Ensures (fun world => during world.disk) post program world

namespace Proc

section Rules

variable {reliable : Bool} {during : Disk → Prop} {world : World}

-- The rules all unfold it, so its equations are generated once, before them.
attribute [local simp] Syscall.exec

instance (call : Syscall) : Nonempty ((system reliable).Choice call) := by
  cases call <;> first
    | exact ⟨(0 : Time)⟩
    | exact ⟨((0, true) : Nat × Bool)⟩
    | exact ⟨AcceptResult.failed⟩
    | exact ⟨RecvResult.failed⟩
    | exact ⟨SendResult.failed⟩
    | exact ⟨()⟩
    | exact ⟨true⟩

theorem perform_spec (call : Syscall) {post : call.Answer → World → Prop}
    (hduring : during world.disk)
    (hpost : ∀ choice : call.Choice, during (call.exec reliable choice world).2.disk ∧
      post (call.exec reliable choice world).1 (call.exec reliable choice world).2) :
    Meets reliable during post (Program.perform (I := host) call) world :=
  .perform hduring hpost

theorem time_spec {post : Time → World → Prop} (hduring : during world.disk)
    (hpost : ∀ now, (reliable = true → now ≠ Time.failed) → post now world) :
    Meets reliable during post time world := by
  refine perform_spec .time hduring fun (now : Time) =>
    ⟨hduring, hpost (if reliable && now = Time.failed then 0 else now) ?_⟩
  intro hreliable
  by_cases hfailed : now = Time.failed
  · simp [hreliable, hfailed]
    decide
  · simp [hfailed]

theorem malloc_spec {bytes : U64} {post : Bool → World → Prop} (hduring : during world.disk)
    (hpost : ∀ granted, (reliable = true → granted = true) →
      (reliable = false → granted = true → bytes.toNat ≤ allocationMax) → post granted world) :
    Meets reliable during post (malloc bytes) world :=
  perform_spec (.malloc bytes) hduring fun (granted : Bool) =>
    ⟨hduring, hpost (reliable || granted && decide (bytes.toNat ≤ allocationMax))
      (by simp +contextual) (by simp +contextual)⟩

theorem realloc_spec {bytes : U64} {post : Bool → World → Prop} (hduring : during world.disk)
    (hpost : ∀ granted, (reliable = true → granted = true) →
      (reliable = false → granted = true → bytes.toNat ≤ allocationMax) → post granted world) :
    Meets reliable during post (realloc bytes) world :=
  perform_spec (.realloc bytes) hduring fun (granted : Bool) =>
    ⟨hduring, hpost (reliable || granted && decide (bytes.toNat ≤ allocationMax))
      (by simp +contextual) (by simp +contextual)⟩

theorem returns_malloc {bytes : U64} (hbytes : bytes.toNat ≤ allocationMax) :
    (system false).Returns (malloc bytes) world true world := by
  refine Machine.returns_perform.mpr ⟨true, ?_⟩
  change (false || true && decide (bytes.toNat ≤ allocationMax), world) = (true, world)
  simp [hbytes]

theorem returns_realloc {bytes : U64} (granted : Bool)
    (hbytes : granted = true → bytes.toNat ≤ allocationMax) :
    (system false).Returns (realloc bytes) world granted world := by
  refine Machine.returns_perform.mpr ⟨granted, ?_⟩
  change (false || granted && decide (bytes.toNat ≤ allocationMax), world) = (granted, world)
  cases granted with
  | false => rfl
  | true => simp [hbytes rfl]

theorem openExclusive_spec {post : OpenResult → World → Prop} (hduring : during world.disk)
    (hfailed : reliable = false → post .failed world)
    (hexists : world.disk.file.isSome → post .exists world)
    (hopened : world.disk.file = none →
      during .create ∧ post .opened { world with disk := .create }) :
    Meets reliable during post openExclusive world := by
  refine perform_spec .openExclusive hduring fun (opens : Bool) => ?_
  by_cases hopens : (opens || reliable) = true
  · cases hfile : world.disk.file with
    | none => simpa [hopens, hfile] using hopened hfile
    | some bytes => simpa [hopens, hfile] using ⟨hduring, hexists (by simp [hfile])⟩
  · simp only [Bool.or_eq_true, not_or, Bool.not_eq_true] at hopens
    simpa [hopens] using ⟨hduring, hfailed hopens.2⟩

/-- A call that takes effect, or fails and leaves the world as it was. -/
theorem attempt_spec (call : Syscall) {post : call.Answer → World → Prop}
    {answer failure : call.Answer} (effect : World) (hduring : during world.disk)
    (hexec : ∀ choice, call.exec reliable choice world = (answer, effect) ∨
      reliable = false ∧ call.exec reliable choice world = (failure, world))
    (hfailed : reliable = false → post failure world)
    (hdone : during effect.disk ∧ post answer effect) :
    Meets reliable during post (Program.perform (I := host) call) world := by
  refine perform_spec call hduring fun choice => ?_
  rcases hexec choice with heq | ⟨hunreliable, heq⟩
  · rw [heq]
    exact hdone
  · rw [heq]
    exact ⟨hduring, hfailed hunreliable⟩

theorem openExisting_spec {post : Bool → World → Prop} (hduring : during world.disk)
    (hfile : world.disk.file.isSome) (hfailed : reliable = false → post false world)
    (hopened : during (world.disk.seek 0) ∧
      post true { world with disk := world.disk.seek 0 }) :
    Meets reliable during post openExisting world := by
  refine attempt_spec .openExisting { world with disk := world.disk.seek 0 } hduring
    (fun (opens : Bool) => ?_) hfailed hopened
  cases opens <;> cases reliable <;> simp [hfile]

theorem read_spec {count : Nat} {post : Option (List U8) → World → Prop}
    (hduring : during world.disk) (hfailed : reliable = false → post none world)
    (hread : ∀ data, data = world.disk.peek count →
      during (world.disk.seek (world.disk.cursor + data.length)) ∧
      post (some data) { world with disk := world.disk.seek (world.disk.cursor + data.length) }) :
    Meets reliable during post (read count) world := by
  refine attempt_spec (.read count)
    { world with disk := world.disk.seek (world.disk.cursor + (world.disk.peek count).length) }
    hduring (fun (reads : Bool) => ?_) hfailed (hread _ rfl)
  cases reads <;> cases reliable <;> simp

theorem fsync_spec {post : Bool → World → Prop} (hduring : during world.disk)
    (hfailed : reliable = false → post false world)
    (hsynced : during world.disk.sync ∧ post true { world with disk := world.disk.sync }) :
    Meets reliable during post fsync world := by
  refine attempt_spec .fsync { world with disk := world.disk.sync } hduring
    (fun (syncs : Bool) => ?_) hfailed hsynced
  cases syncs <;> cases reliable <;> simp

theorem lseek_start_spec {offset : Nat} {post : Bool → World → Prop}
    (hduring : during world.disk) (hfailed : reliable = false → post false world)
    (hmoved : during (world.disk.seek offset) ∧
      post true { world with disk := world.disk.seek offset }) :
    Meets reliable during post (lseek offset .start) world := by
  refine attempt_spec (.lseek offset .start) { world with disk := world.disk.seek offset } hduring
    (fun (seeks : Bool) => ?_) hfailed hmoved
  cases seeks <;> cases reliable <;> simp

theorem lseek_end_spec {post : Bool → World → Prop}
    (hduring : during world.disk) (hfailed : reliable = false → post false world)
    (hmoved : during (world.disk.seek world.disk.bytes.length) ∧
      post true { world with disk := world.disk.seek world.disk.bytes.length }) :
    Meets reliable during post (lseek 0 .end) world := by
  refine attempt_spec (.lseek 0 .end)
    { world with disk := world.disk.seek world.disk.bytes.length } hduring
    (fun (seeks : Bool) => ?_) hfailed hmoved
  cases seeks <;> cases reliable <;> simp

theorem ftruncate_spec {offset : Nat} {post : Bool → World → Prop}
    (hduring : during world.disk) (hfailed : reliable = false → post false world)
    (hcut : during (world.disk.truncate offset) ∧
      post true { world with disk := world.disk.truncate offset }) :
    Meets reliable during post (ftruncate offset) world := by
  refine attempt_spec (.ftruncate offset)
    { world with disk := world.disk.truncate offset } hduring (fun (cuts : Bool) => ?_) hfailed hcut
  cases cuts <;> cases reliable <;> simp

/-- Some prefix of the data reaches the file; only a complete write can report
the full length, and no write goes past the largest offset. -/
theorem write_spec {bytes : List U8} {post : Option Nat → World → Prop}
    (hduring : during world.disk)
    (hwrite : ∀ count ≤ bytes.length, count ≤ Disk.offsetMax - world.disk.cursor →
      (reliable = true →
        count = bytes.length ∨ Disk.offsetMax < world.disk.cursor + bytes.length) →
      during (world.disk.put (bytes.take count)) ∧
      post (some count) { world with disk := world.disk.put (bytes.take count) } ∧
      (reliable = false →
        post none { world with disk := world.disk.put (bytes.take count) })) :
    Meets reliable during post (write bytes) world := by
  refine perform_spec (.write bytes) hduring fun ((count, reports) : Nat × Bool) => ?_
  let limit := min (if reliable then bytes.length else count)
    (Disk.offsetMax - world.disk.cursor)
  have hcut : bytes.take (min limit bytes.length) = bytes.take limit :=
    (List.take_eq_take_min).symm
  have hcomplete : reliable = true → min limit bytes.length = bytes.length ∨
      Disk.offsetMax < world.disk.cursor + bytes.length := by
    intro hreliable
    simp only [limit, hreliable, if_true]
    omega
  obtain ⟨hinstant, hreport, herror⟩ :=
    hwrite (min limit bytes.length) (by omega) (by omega) hcomplete
  rw [hcut] at hinstant hreport herror
  refine ⟨hinstant, ?_⟩
  change post (if reports || reliable then some (bytes.take limit).length else none)
    { world with disk := world.disk.put (bytes.take limit) }
  split
  · rwa [List.length_take]
  next hno => exact herror (by simp at hno; exact hno.2)

theorem closeFile_spec {post : Unit → World → Prop} (hduring : during world.disk)
    (hpost : post () world) : Meets reliable during post closeFile world :=
  perform_spec .closeFile hduring fun _ => ⟨hduring, hpost⟩

theorem closeSocket_spec {post : Unit → World → Prop} (hduring : during world.disk)
    (hpost : post () world) : Meets reliable during post closeSocket world :=
  perform_spec .closeSocket hduring fun _ => ⟨hduring, hpost⟩

/-! ## Calls that leave the disk alone -/

/-- The calls about sockets and flags. -/
def Distant : Syscall → Prop
  | .socket | .bind _ | .listen _ | .accept | .recv | .send _
  | .getAccepting | .getExecuting | .setAccepting _ | .setExecuting _ => True
  | _ => False

theorem exec_disk_of_distant {call : Syscall} (hdistant : Distant call) (choice : call.Choice) :
    (call.exec reliable choice world).2.disk = world.disk := by
  cases call with
  | accept => cases (choice : AcceptResult) <;> rfl
  | recv => cases (choice : RecvResult) <;> rfl
  | send bytes => cases (choice : SendResult) <;> rfl
  | getAccepting => cases (choice : Bool) <;> rfl
  | getExecuting => cases (choice : Bool) <;> rfl
  | setAccepting value => cases (choice : Bool) <;> rfl
  | setExecuting value => cases (choice : Bool) <;> rfl
  | socket | bind | listen => rfl
  | _ => exact hdistant.elim

theorem distant_spec (call : Syscall) (hdistant : Distant call)
    {post : call.Answer → World → Prop} (hduring : during world.disk)
    (hpost : ∀ answer world', world'.disk = world.disk → post answer world') :
    Meets reliable during post (Program.perform (I := host) call) world := by
  refine perform_spec call hduring fun choice => ?_
  have hdisk : (call.exec reliable choice world).2.disk = world.disk :=
    exec_disk_of_distant hdistant choice
  exact ⟨hdisk ▸ hduring, hpost _ _ hdisk⟩

/-! ## The connection -/

theorem accept_spec {post : AcceptResult → World → Prop} (hduring : during world.disk)
    (hhandle : ∀ handle, post (.handle handle) { world with received := [], sent := [] })
    (hfailed : ∀ result, (∀ handle, result ≠ .handle handle) → post result world) :
    Meets reliable during post accept world := by
  refine perform_spec .accept hduring fun (result : AcceptResult) => ?_
  cases result with
  | handle handle => exact ⟨hduring, hhandle handle⟩
  | interrupted => exact ⟨hduring, hfailed _ fun _ heq => nomatch heq⟩
  | failed => exact ⟨hduring, hfailed _ fun _ heq => nomatch heq⟩

theorem recv_spec {post : RecvResult → World → Prop} (hduring : during world.disk)
    (hbyte : ∀ byte, post (.byte byte) { world with received := world.received ++ [byte] })
    (hfailed : ∀ result, (∀ byte, result ≠ .byte byte) → post result world) :
    Meets reliable during post recv world := by
  refine perform_spec .recv hduring fun (result : RecvResult) => ?_
  cases result with
  | byte byte => exact ⟨hduring, hbyte byte⟩
  | closed => exact ⟨hduring, hfailed _ fun _ heq => nomatch heq⟩
  | wouldBlock => exact ⟨hduring, hfailed _ fun _ heq => nomatch heq⟩
  | interrupted => exact ⟨hduring, hfailed _ fun _ heq => nomatch heq⟩
  | failed => exact ⟨hduring, hfailed _ fun _ heq => nomatch heq⟩

/-- Some prefix of the bytes is sent. -/
theorem send_spec {bytes : List U8} {post : SendResult → World → Prop} (hduring : during world.disk)
    (hsent : ∀ count ≤ bytes.length,
      post (.sent count) { world with sent := world.sent ++ bytes.take count })
    (hfailed : ∀ result, (∀ count, result ≠ .sent count) → post result world) :
    Meets reliable during post (send bytes) world := by
  refine perform_spec (.send bytes) hduring fun (result : SendResult) => ?_
  cases result with
  | sent count =>
      have hcount := hsent (bytes.take count).length (List.length_take_le' _ _)
      rw [List.length_take, ← List.take_eq_take_min] at hcount
      refine ⟨hduring, ?_⟩
      change post (.sent (bytes.take count).length) _
      rwa [List.length_take]
  | wouldBlock => exact ⟨hduring, hfailed _ fun _ heq => nomatch heq⟩
  | interrupted => exact ⟨hduring, hfailed _ fun _ heq => nomatch heq⟩
  | failed => exact ⟨hduring, hfailed _ fun _ heq => nomatch heq⟩

/-! ## The flags -/

@[simp] theorem interrupt_disk (signalled : Bool) :
    (world.interrupt signalled).disk = world.disk := by
  cases signalled <;> rfl

@[simp] theorem interrupt_received (signalled : Bool) :
    (world.interrupt signalled).received = world.received := by
  cases signalled <;> rfl

@[simp] theorem interrupt_sent (signalled : Bool) :
    (world.interrupt signalled).sent = world.sent := by
  cases signalled <;> rfl

theorem getAccepting_spec {post : Bool → World → Prop} (hduring : during world.disk)
    (hpost : ∀ signalled, post (world.interrupt signalled).accepting (world.interrupt signalled)) :
    Meets reliable during post getAccepting world :=
  perform_spec .getAccepting hduring fun (signalled : Bool) =>
    ⟨(interrupt_disk signalled).symm ▸ hduring, hpost signalled⟩

theorem getExecuting_spec {post : Bool → World → Prop} (hduring : during world.disk)
    (hpost : ∀ signalled, post (world.interrupt signalled).executing (world.interrupt signalled)) :
    Meets reliable during post getExecuting world :=
  perform_spec .getExecuting hduring fun (signalled : Bool) =>
    ⟨(interrupt_disk signalled).symm ▸ hduring, hpost signalled⟩

theorem setAccepting_spec {value : Bool} {post : Unit → World → Prop} (hduring : during world.disk)
    (hpost : ∀ signalled, post () { world.interrupt signalled with accepting := value }) :
    Meets reliable during post (setAccepting value) world :=
  perform_spec (.setAccepting value) hduring fun (signalled : Bool) =>
    ⟨(interrupt_disk signalled).symm ▸ hduring, hpost signalled⟩

theorem setExecuting_spec {value : Bool} {post : Unit → World → Prop} (hduring : during world.disk)
    (hpost : ∀ signalled, post () { world.interrupt signalled with executing := value }) :
    Meets reliable during post (setExecuting value) world :=
  perform_spec (.setExecuting value) hduring fun (signalled : Bool) =>
    ⟨(interrupt_disk signalled).symm ▸ hduring, hpost signalled⟩

end Rules

end Proc

end LetDX.LetDB
