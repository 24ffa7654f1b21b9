import LetDX.Durable.Recovery
import LetDX.LetDB.Server.Step

/-! # Lifetimes of a server on one file

A lifetime is initialization and then any number of steps of the main loops. It
may end at any instant, and a crash may then take what was not synced. What the
file holds afterwards are the operations acknowledged so far and, of each
lifetime, at most the one in flight besides.
-/

namespace LetDX.LetDB

open Bytes Durable Effects

abbrev ServerHistory := History StorageWalEntryData

/-- The reply is one that acknowledges a mutating request. -/
def NetworkResponse.succeeds : NetworkResponse → Bool
  | addAccount _ | ok => true
  | magic | getAccount .. | countDatabase .. | error _ => false

/-- The operation that a request asks for. -/
def NetworkRequest.data (request : NetworkRequest) : Option StorageWalEntryData :=
  request.operation.map Prod.snd

/-- What is known of a lifetime once a program point has been reached: a request
is in flight while it is processed, and acknowledged with a success reply. -/
def observe (history : ServerHistory) : LetRun → ServerHistory
  | .processing _ request => { history with inFlight := request.data }
  | .responding _ request response =>
      { acknowledged := history.acknowledged ++
          if response.succeeds then request.data.toList else []
        inFlight := none }
  | .accepting _ | .reading _ => { history with inFlight := none }
  | .finished _ => history

/-- A server that was started in this world has reached a program point. On a
careful start the clock, the allocator and the file calls succeed. -/
inductive Serves (careful : Bool) (cli : Cli) (start : World) :
    ServerHistory → LetRun → World → Prop
  | start {point : LetRun} {world : World}
      (started : (system careful).Returns (letStart cli) start (.ok point) world) :
      Serves careful cli start (observe {} point) point world
  | step {history : ServerHistory} {point point' : LetRun} {world world' : World}
      (served : Serves careful cli start history point world)
      (stepped : (system false).Returns (letRunStep point) world point' world') :
      Serves careful cli start (observe history point') point' world'

/-- A server that was started in this world is at some instant in another. -/
inductive Instant (careful : Bool) (cli : Cli) (start : World) : ServerHistory → World → Prop
  | starting {world : World} (passes : (system careful).Passes (letStart cli) start world) :
      Instant careful cli start {} world
  | serving {history : ServerHistory} {point : LetRun} {world world' : World}
      (served : Serves careful cli start history point world)
      (passes : (system false).Passes (letRunStep point) world world') :
      Instant careful cli start history world'

/-- The lifetimes on one file so far, and the disk they have left. A careful
start also cuts off a torn tail. -/
inductive Lives (careful : Bool) (initial : Disk) : List ServerHistory → Disk → Prop
  | nil : Lives careful initial [] initial
  | life {past : List ServerHistory} {disk disk' : Disk} {cli : Cli} {history : ServerHistory}
      {world : World} (lives : Lives careful initial past disk)
      (cautious : careful = true → cli.truncateOnFail = true)
      (instant : Instant careful cli { disk } history world) (crash : world.disk.Crash disk') :
      Lives careful initial (past ++ [history]) disk'

/-! ## Disks from which a server recovers -/

/-- What the past lifetimes may have left: no file, an unfinished header, or a
log of their operations with a torn tail. With a header known to be on disk,
only the last. -/
inductive Recoverable (headed : Bool) (past : List ServerHistory) : Disk → Prop
  | absent {synced cursor : Nat} (unheaded : headed = false) (recovered : Recovered past 0 []) :
      Recoverable headed past ⟨none, synced, cursor⟩
  | header {count synced cursor : Nat} (unheaded : headed = false)
      (recovered : Recovered past 0 []) (short : count < storageWalHeaderLength) :
      Recoverable headed past ⟨some (storageWalHeader.take count), synced, cursor⟩
  | log {entries : List StorageWalEntry} {tail : List U8} {synced cursor before : Nat}
      (wellformed : Wellformed entries)
      (recovered : Recovered past before (entries.map StorageWalEntry.data))
      (covered : before * storageWalEntrySafeSize ≤ synced - storageWalHeaderLength)
      (headed_le : headed = true → storageWalHeaderLength ≤ synced)
      (synced_le : synced ≤ (storageWalImage entries ++ tail).length)
      (limit : (storageWalImage entries ++ tail).length ≤ Disk.offsetMax)
      (tail_lt : tail.length < storageWalEntrySafeSize) :
      Recoverable headed past ⟨some (storageWalImage entries ++ tail), synced, cursor⟩

theorem Wellformed.nil : Wellformed [] where
  numbered := rfl
  admitted := .nil

theorem Wellformed.take {entries : List StorageWalEntry} (hwell : Wellformed entries)
    (count : Nat) : Wellformed (entries.take count) where
  numbered := by
    rw [List.map_take, hwell.numbered, ← List.map_take, List.take_range, List.length_take]
  admitted := by
    rw [List.map_take]
    exact hwell.admitted.take count

namespace Recoverable

variable {headed : Bool} {past : List ServerHistory} {disk disk' : Disk}

theorem seek (hrecoverable : Recoverable headed past disk) (offset : Nat) :
    Recoverable headed past (disk.seek offset) := by
  cases hrecoverable with
  | absent unheaded recovered => exact .absent unheaded recovered
  | header unheaded recovered short => exact .header unheaded recovered short
  | log wellformed recovered covered headed_le synced_le limit tail_lt =>
      exact .log wellformed recovered covered headed_le synced_le limit tail_lt

/-- A lifetime that has acknowledged nothing leaves what it has found. -/
theorem idle (hrecoverable : Recoverable headed past disk) {history : ServerHistory}
    (hnone : history.acknowledged = []) : Recoverable headed (past ++ [history]) disk := by
  cases hrecoverable with
  | absent unheaded recovered => exact .absent unheaded (recovered.idle hnone)
  | header unheaded recovered short => exact .header unheaded (recovered.idle hnone) short
  | log wellformed recovered covered headed_le synced_le limit tail_lt =>
      exact .log wellformed (recovered.idle hnone) covered headed_le synced_le limit tail_lt

/-- A crash cuts the log behind the durable operations. -/
theorem crash (hrecoverable : Recoverable headed past disk) (hcrash : disk.Crash disk') :
    Recoverable headed past disk' := by
  obtain ⟨kept, hkept, hfile, hsynced⟩ := hcrash
  obtain ⟨file', synced', cursor'⟩ := disk'
  dsimp only at hfile hsynced
  subst hfile hsynced
  cases hrecoverable with
  | absent unheaded recovered => exact .absent unheaded recovered
  | @header count _ _ unheaded recovered short =>
      rw [Option.map_some, List.take_take]
      exact .header unheaded recovered (by omega)
  | @log entries tail synced _ before wellformed recovered covered headed_le synced_le limit
      tail_lt =>
      dsimp only at hkept
      rw [Option.map_some]
      -- A crash inside the header loses no operation, since none was durable.
      by_cases hheader : kept < storageWalHeaderLength
      · have htake : (storageWalImage entries ++ tail).take kept = storageWalHeader.take kept := by
          rw [storageWalImage, List.append_assoc, List.take_append_of_le_length]
          rw [length_storageWalHeader]
          exact hheader.le
        have hnone : before = 0 := by
          simp only [storageWalEntrySafeSize] at covered
          omega
        have hunheaded : ¬headed = true := fun hheaded => by
          have := headed_le hheaded
          omega
        rw [htake]
        refine .header (by simpa using hunheaded) ?_ hheader
        subst hnone
        simpa using recovered.take (Nat.le_refl 0)
      · obtain ⟨count, rest, hcut, hrest, hcount, hwhole⟩ :=
          (framed_safe entries).take_log tail_lt (kept - storageWalHeaderLength)
        have htake : (storageWalImage entries ++ tail).take kept =
            storageWalImage (entries.take count) ++ rest := by
          rw [storageWalImage, List.append_assoc, List.take_append, length_storageWalHeader, hcut,
            List.take_of_length_le (by rw [length_storageWalHeader]; omega), storageWalImage,
            List.map_take, List.append_assoc]
        have hbefore : before ≤ count := by
          refine hwhole before ?_ (by omega)
          simpa using recovered.before_le
        have hlength : ((storageWalImage entries ++ tail).take kept).length ≤
            (storageWalImage entries ++ tail).length := by
          rw [List.length_take]
          exact Nat.min_le_right _ _
        have hsynced : synced ≤ ((storageWalImage entries ++ tail).take kept).length := by
          rw [List.length_take]
          exact Nat.le_min.mpr ⟨hkept, synced_le⟩
        have hrecovered := recovered.take hbefore
        rw [← List.map_take] at hrecovered
        rw [htake] at hlength hsynced ⊢
        exact .log (wellformed.take count) hrecovered covered headed_le hsynced
          (hlength.trans limit) hrest

end Recoverable

/-! ## What holds at each program point -/

/-- The log holds what the past lifetimes have left and everything that this one
has acknowledged, and the latter is on disk. -/
structure Settled (headed : Bool) (past : List ServerHistory) (history : ServerHistory)
    (entries : List StorageWalEntry) (synced : Nat) : Prop where
  recovered : ∃ before operations, Recovered past before operations ∧
    entries.map StorageWalEntry.data = operations ++ history.acknowledged ∧
    history.durable before operations * storageWalEntrySafeSize ≤ synced - storageWalHeaderLength
  headed_le : headed = true → storageWalHeaderLength ≤ synced

namespace Settled

variable {headed : Bool} {past : List ServerHistory} {history : ServerHistory}
  {entries : List StorageWalEntry} {synced : Nat}

/-- Only what was acknowledged matters. -/
theorem congr (hsettled : Settled headed past history entries synced) {history' : ServerHistory}
    (hsame : history'.acknowledged = history.acknowledged) :
    Settled headed past history' entries synced := by
  obtain ⟨before, operations, hrecovered, hdata, hcovered⟩ := hsettled.recovered
  refine ⟨⟨before, operations, hrecovered, ?_, ?_⟩, hsettled.headed_le⟩
  · rw [hsame, hdata]
  · rwa [History.durable, hsame]

/-- Whatever is torn behind a settled log, the log can be recovered. -/
theorem recoverable (hsettled : Settled headed past history entries synced)
    (hwell : Wellformed entries) (hsynced : synced ≤ (storageWalImage entries).length)
    {tail : List U8} (htail : tail.length < storageWalEntrySafeSize)
    (hlimit : (storageWalImage entries ++ tail).length ≤ Disk.offsetMax) (cursor : Nat) :
    Recoverable headed (past ++ [history])
      ⟨some (storageWalImage entries ++ tail), synced, cursor⟩ := by
  obtain ⟨before, operations, hrecovered, hdata, hcovered⟩ := hsettled.recovered
  have hlost : Recovered (past ++ [history]) (history.durable before operations)
      (entries.map StorageWalEntry.data) := hdata ▸ hrecovered.lost
  refine .log hwell hlost hcovered hsettled.headed_le ?_ hlimit htail
  rw [List.length_append]
  exact Nat.le_add_right_of_le hsynced

/-- The entry in flight may be found behind a settled log. -/
theorem recoverable_kept (hsettled : Settled headed past history entries synced)
    {entry : StorageWalEntry} (hinFlight : history.inFlight = some entry.data)
    (hwell : Wellformed (entries ++ [entry]))
    (hlimit : (storageWalImage (entries ++ [entry])).length ≤ Disk.offsetMax) {synced' : Nat}
    (hgrown : synced ≤ synced') (hsynced : synced' ≤ (storageWalImage (entries ++ [entry])).length)
    (cursor : Nat) :
    Recoverable headed (past ++ [history])
      ⟨some (storageWalImage (entries ++ [entry])), synced', cursor⟩ := by
  obtain ⟨before, operations, hrecovered, hdata, hcovered⟩ := hsettled.recovered
  have hkept : Recovered (past ++ [history]) (history.durable before operations)
      ((entries ++ [entry]).map StorageWalEntry.data) := by
    rw [List.map_append, hdata, List.map_singleton]
    exact hrecovered.kept hinFlight
  have hlog : Recoverable headed (past ++ [history])
      ⟨some (storageWalImage (entries ++ [entry]) ++ []), synced', cursor⟩ := by
    refine .log hwell hkept (by omega) ?_ ?_ ?_ (by decide)
    · exact fun hheaded => (hsettled.headed_le hheaded).trans hgrown
    · rwa [List.append_nil]
    · rwa [List.append_nil]
  rwa [List.append_nil] at hlog

/-- A committed operation is settled. -/
theorem commit (hsettled : Settled headed past history entries synced) (entry : StorageWalEntry)
    {history' : ServerHistory}
    (hgrown : history'.acknowledged = history.acknowledged ++ [entry.data]) :
    Settled headed past history' (entries ++ [entry])
      (storageWalImage (entries ++ [entry])).length := by
  obtain ⟨before, operations, hrecovered, hdata, _⟩ := hsettled.recovered
  have hgrow : (entries ++ [entry]).map StorageWalEntry.data =
      operations ++ history'.acknowledged := by
    rw [List.map_append, hdata, hgrown, List.append_assoc, List.map_singleton]
  refine ⟨⟨before, operations, hrecovered, hgrow, ?_⟩, ?_⟩
  · rw [History.durable, if_neg (by simp [hgrown]), ← hgrow, List.length_map,
      length_storageWalImage]
    omega
  · intro _
    rw [length_storageWalImage]
    exact Nat.le_add_right _ _

end Settled

theorem Requested.wellformed {entries : List StorageWalEntry} {request : NetworkRequest}
    {entry : StorageWalEntry} (hrequested : Requested entries request entry)
    (hwell : Wellformed entries) : Wellformed (entries ++ [entry]) :=
  hwell.concat hrequested.numbered hrequested.permitted

theorem Requested.data {entries : List StorageWalEntry} {request : NetworkRequest}
    {entry : StorageWalEntry} (hrequested : Requested entries request entry) :
    request.data = some entry.data := by
  rw [NetworkRequest.data, hrequested.operation, Option.map_some]

section Steps

variable {headed : Bool} {past : List ServerHistory} {history : ServerHistory}
  {entries : List StorageWalEntry} {context : Let} {request : NetworkRequest} {disk disk' : Disk}

theorem Agrees.recoverable (hagrees : Agrees entries context disk)
    (hsettled : Settled headed past history entries disk.synced) :
    Recoverable headed (past ++ [history]) disk := by
  have hlog : Recoverable headed (past ++ [history])
      ⟨some (storageWalImage entries ++ []), disk.synced, (storageWalImage entries).length⟩ := by
    refine hsettled.recoverable hagrees.wellformed hagrees.synced_le (by decide) ?_ _
    rw [List.append_nil]
    exact hagrees.limit
  rw [List.append_nil] at hlog
  rwa [hagrees.disk_eq]

/-- At every instant of an append the log can be recovered. -/
theorem Appending.recoverable (happending : Appending entries request disk.synced disk')
    (hagrees : Agrees entries context disk)
    (hsettled : Settled headed past history entries disk.synced)
    (hinFlight : history.inFlight = request.data) :
    Recoverable headed (past ++ [history]) disk' := by
  cases happending with
  | @torn entry count requested within limit =>
      rcases Nat.lt_or_eq_of_le within with hshort | rfl
      · have hlength : (entry.safe.take count).length = count := by
          rw [List.length_take, entry.length_safe, Nat.min_eq_left within]
        refine hsettled.recoverable hagrees.wellformed hagrees.synced_le ?_ ?_ _
        · rwa [hlength]
        · rwa [List.length_append, hlength]
      · have hlimit : (storageWalImage (entries ++ [entry])).length ≤ Disk.offsetMax := by
          rwa [storageWalImage_concat, List.length_append, entry.length_safe]
        rw [tornDisk_full]
        refine hsettled.recoverable_kept (hinFlight.trans requested.data)
          (requested.wellformed hagrees.wellformed) hlimit (Nat.le_refl _) ?_ _
        rw [storageWalImage_concat, List.length_append]
        exact Nat.le_add_right_of_le hagrees.synced_le
  | @synced entry requested limit =>
      refine hsettled.recoverable_kept (hinFlight.trans requested.data)
        (requested.wellformed hagrees.wellformed) limit ?_ (Nat.le_refl _) _
      rw [storageWalImage_concat, List.length_append]
      exact Nat.le_add_right_of_le hagrees.synced_le

/-- A commit keeps log and memory in agreement. -/
theorem Requested.agrees {entry : StorageWalEntry} {now : Time} {context' : Let}
    (hrequested : Requested entries request entry) (hagrees : Agrees entries context disk)
    (hlimit : (storageWalImage (entries ++ [entry])).length ≤ Disk.offsetMax)
    (haccounts : context'.state.accountList.accounts =
      entry.data.apply entry.timestamp now context.state.accountList.accounts)
    (htransactions : context'.storageWal.transactions = context.storageWal.transactions + 1) :
    Agrees (entries ++ [entry]) context' (syncedDisk (entries ++ [entry])) where
  wellformed := hrequested.wellformed hagrees.wellformed
  disk_eq := rfl
  synced_le := Nat.le_refl _
  limit := hlimit
  transactions := by
    rw [htransactions, hagrees.transactions, List.length_append, List.length_singleton,
      BitVec.ofNat_add]
    rfl
  ledger := by
    rw [List.map_append, List.map_singleton, Ledger.balance_concat, ← hagrees.ledger, haccounts]
    exact ledgerOf_apply _ _ _ _

end Steps

/-- At each program point log and memory agree and everything acknowledged is
on disk. A fatal error may leave the entry in flight behind, whole or torn. -/
inductive Holds (headed : Bool) (past : List ServerHistory) (history : ServerHistory) :
    LetRun → Disk → Prop
  | running {point : LetRun} {entries : List StorageWalEntry} {disk : Disk}
      (agrees : Agrees entries point.context disk)
      (settled : Settled headed past history entries disk.synced)
      (current : ∀ context request, point = .processing context request →
        history.inFlight = request.data) : Holds headed past history point disk
  | finished {before context : Let} {request : NetworkRequest} {entries : List StorageWalEntry}
      {disk disk' : Disk} (agrees : Agrees entries before disk)
      (settled : Settled headed past history entries disk.synced)
      (current : history.inFlight = request.data)
      (accounts : context.state.accountList.accounts = before.state.accountList.accounts)
      (appending : disk' = disk ∨ Appending entries request disk.synced disk') :
      Holds headed past history (.finished context) disk'

section Runs

variable {headed reliable : Bool} {past : List ServerHistory} {history : ServerHistory}
  {point : LetRun} {world : World}

theorem Holds.recoverable {disk : Disk} (hholds : Holds headed past history point disk) :
    Recoverable headed (past ++ [history]) disk := by
  cases hholds with
  | running agrees settled _ => exact agrees.recoverable settled
  | finished agrees settled current _ appending =>
      rcases appending with rfl | happending
      · exact agrees.recoverable settled
      · exact happending.recoverable agrees settled current

theorem Agrees.withError {entries : List StorageWalEntry} {context : Let} {disk : Disk}
    (hagrees : Agrees entries context disk) (error : Error) :
    Agrees entries { context with error } disk :=
  ⟨hagrees.wellformed, hagrees.disk_eq, hagrees.synced_le, hagrees.limit, hagrees.transactions,
    hagrees.ledger⟩

/-- Between requests nothing is in flight. -/
theorem Holds.idle {entries : List StorageWalEntry} {context : Let} {error : Error} {disk : Disk}
    (hagrees : Agrees entries context disk)
    (hsettled : Settled headed past history entries disk.synced) (hidle : point.Idle)
    (hcontext : point.context = { context with error }) :
    Holds headed past (observe history point) point disk := by
  have hsame : (observe history point).acknowledged = history.acknowledged := by
    cases point <;> first | rfl | exact hidle.elim
  refine .running (hcontext ▸ hagrees.withError error) (hsettled.congr hsame) ?_
  rintro _ request rfl
  exact hidle.elim

theorem observe_committed {request : NetworkRequest} {data : StorageWalEntryData} {length : U64}
    {context : Let} (hdata : request.data = some data) :
    (observe history (.responding context request (data.reply length))).acknowledged =
      history.acknowledged ++ [data] := by
  cases data <;> simp [observe, StorageWalEntryData.reply, NetworkResponse.succeeds, hdata]

/-- A reply to an inquiry or an error acknowledges nothing. -/
theorem observe_answered {request : NetworkRequest} {response : NetworkResponse} {context : Let}
    (hnone : response.succeeds = true → request.data = none) :
    (observe history (.responding context request response)).acknowledged =
      history.acknowledged := by
  cases hsucceeds : response.succeeds with
  | false => simp [observe, hsucceeds]
  | true => simp [observe, hnone hsucceeds]

theorem data_of_inquiry {request : NetworkRequest} {response : NetworkResponse} {context : Let}
    (hinquiry : request.inquiry context = some response) : request.data = none := by
  cases request <;> first | rfl | nomatch hinquiry

/-- The step lemma: every step of the loops keeps what holds at program points,
and at every instant of it the log can be recovered. -/
theorem letRunStep_spec (hholds : Holds headed past history point world.disk) :
    Meets reliable (Recoverable headed (past ++ [history]))
      (fun point' world' => Holds headed past (observe history point') point' world'.disk)
      (letRunStep point) world := by
  have hstart := hholds.recoverable
  cases hholds with
  | finished agrees settled current accounts appending =>
      exact .pure hstart (.finished agrees settled current accounts appending)
  | @running _ entries _ agrees settled current =>
      have hanswered (context : Let) (error : Error) (request : NetworkRequest)
          (response : NetworkResponse) (world' : World) (hdisk : world'.disk = world.disk)
          (hcontext : context = { point.context with error })
          (hnone : response.succeeds = true → request.data = none) :
          Holds headed past (observe history (.responding context request response))
            (.responding context request response) world'.disk := by
        rw [hdisk]
        refine .running (hcontext ▸ agrees.withError error)
          (settled.congr (observe_answered hnone)) ?_
        intro _ _ heq
        nomatch heq
      -- Only the processing of a request touches the disk.
      rcases point.passing_or_processing with hpassing | ⟨context, request, rfl⟩
      · refine (letRunStep_passing_spec hstart hpassing).weaken ?_
        intro point' world' hpassed
        cases hpassed with
        | idle idle context disk =>
            rw [disk]
            exact .idle agrees settled idle context
        | decoded disk =>
            rw [disk]
            refine .running (agrees.withError _) (settled.congr rfl) ?_
            intro _ _ heq
            obtain ⟨rfl, rfl⟩ := LetRun.processing.inj heq
            rfl
        | undecoded disk =>
            exact hanswered _ _ _ _ _ disk rfl fun hsucceeds => nomatch hsucceeds
      · have hcurrent : history.inFlight = request.data := current _ _ rfl
        refine (letRunStep_processing_spec agrees ?_).weaken ?_
        · rintro disk (rfl | happending)
          · exact hstart
          · exact happending.recoverable agrees settled hcurrent
        · intro point' world' hprocessed
          cases hprocessed with
          | @committed entry now context' requested limit accounts transactions =>
              refine .running (requested.agrees agrees limit accounts transactions)
                (settled.commit entry (observe_committed requested.data)) ?_
              intro _ _ heq
              nomatch heq
          | answered inquiry =>
              exact hanswered _ .none _ _ _ rfl rfl fun _ => data_of_inquiry inquiry
          | refused action =>
              exact hanswered _ .none _ _ _ rfl rfl fun hsucceeds => nomatch hsucceeds
          | fatal action accounts appending sent =>
              exact .finished agrees settled hcurrent accounts appending

/-! ## Starting -/

/-- What opening and replaying the log comes to. -/
def Restarted (headed : Bool) (past : List ServerHistory) (result : Error × StorageWal × State)
    (disk : Disk) : Prop :=
  errorExists result.1 ∧ Recoverable headed past disk ∨
    ∃ entries, Agrees entries { storageWal := result.2.1, state := result.2.2, error := result.1 }
        disk ∧
      Settled headed past {} entries disk.synced ∧ result.1 = .none

/-- The accounts are what the entries of the file make. -/
def Rebuilt (state : State) (disk : Disk) : Prop :=
  ∃ entries, disk.file = some (storageWalImage entries) ∧
    Applied .any entries state.accountList.accounts

/-- Replaying a log that past lifetimes have left. -/
theorem storageWalReplay_restarted {state : State} {storageWal : StorageWal}
    {truncateOnFail : Bool} {entries : List StorageWalEntry} {tail : List U8}
    {synced cursor before : Nat} (hempty : state.accountList.accounts = [])
    (hdisk : world.disk = ⟨some (storageWalImage entries ++ tail), synced, cursor⟩)
    (hwell : Wellformed entries)
    (hrecovered : Recovered past before (entries.map StorageWalEntry.data))
    (hcovered : before * storageWalEntrySafeSize ≤ synced - storageWalHeaderLength)
    (hheaded : headed = true → storageWalHeaderLength ≤ synced)
    (hsynced : synced ≤ (storageWalImage entries ++ tail).length)
    (hlimit : (storageWalImage entries ++ tail).length ≤ Disk.offsetMax)
    (htail : tail.length < storageWalEntrySafeSize) :
    Meets reliable (Recoverable headed past)
      (fun result world' => Restarted headed past result world'.disk ∧
        (result.1 = .none → Rebuilt result.2.2 world'.disk) ∧
        (reliable = true → truncateOnFail = true → result.1 = .none))
      (storageWalReplay storageWal state truncateOnFail) world := by
  have hlength := length_storageWalImage entries
  have hbefore : before ≤ entries.length := by simpa using hrecovered.before_le
  -- A torn tail covers no operation, so cutting it off takes none away.
  have hcovered' : before * storageWalEntrySafeSize ≤
      min synced (storageWalImage entries).length - storageWalHeaderLength := by
    have := Nat.mul_le_mul_right storageWalEntrySafeSize hbefore
    omega
  have hheaded' : headed = true →
      storageWalHeaderLength ≤ min synced (storageWalImage entries).length := by
    intro hheader
    have := hheaded hheader
    omega
  have hlimit' : (storageWalImage entries).length ≤ Disk.offsetMax := by
    rw [List.length_append] at hlimit
    omega
  have hcut (offset : Nat) : Recoverable headed past
      ((logDisk entries (min synced (storageWalImage entries).length)).seek offset) := by
    have hlog : Recoverable headed past ⟨some (storageWalImage entries ++ []),
        min synced (storageWalImage entries).length, offset⟩ := by
      refine .log hwell hrecovered hcovered' hheaded' ?_ ?_ (by decide)
      · rw [List.append_nil]
        exact Nat.min_le_right _ _
      · rwa [List.append_nil]
    rwa [List.append_nil] at hlog
  have hwhole : Recoverable headed past world.disk :=
    hdisk ▸ .log hwell hrecovered hcovered hheaded hsynced hlimit htail
  refine storageWalReplay_spec hdisk hsynced htail hwell.named (length_lt_of_limit hlimit') hempty
    (fun offset => hwhole.seek offset) hcut ?_ ?_
  · intro _ state' happlied
    refine ⟨.inr ⟨entries, ⟨hwell, rfl, Nat.min_le_right _ _, hlimit', rfl, happlied.ledger⟩, ?_,
      rfl⟩, fun _ => ⟨entries, rfl, happlied⟩, fun _ _ => rfl⟩
    exact ⟨⟨before, _, hrecovered, (List.append_nil _).symm, hcovered'⟩, hheaded'⟩
  · intro hcause error storageWal' state' offset herror
    have himpossible : reliable = true → truncateOnFail = true → error = .none := by
      rintro rfl rfl
      rcases hcause with hunreliable | ⟨_, hstrict⟩
      · nomatch hunreliable
      · nomatch hstrict
    have hrebuilt {disk : Disk} : error = .none → Rebuilt state' disk := by
      rintro rfl
      nomatch herror
    exact ⟨⟨.inl ⟨herror, hwhole.seek offset⟩, hrebuilt, himpossible⟩,
      ⟨.inl ⟨herror, hcut offset⟩, hrebuilt, himpossible⟩⟩

theorem letInitStorage_spec {state : State} {truncateOnFail : Bool}
    (hempty : state.accountList.accounts = []) (hdisk : Recoverable headed past world.disk) :
    Meets reliable (Recoverable headed past)
      (fun result world' => Restarted headed past result world'.disk ∧
        (result.1 = .none → Rebuilt result.2.2 world'.disk) ∧
        (reliable = true → headed = true → truncateOnFail = true → result.1 = .none))
      (letInitStorage state truncateOnFail) world := by
  have hseek (offset : Nat) : Recoverable headed past (world.disk.seek offset) := hdisk.seek offset
  have hfailed {error : ErrorStorage} {disk : Disk} (hrecoverable : Recoverable headed past disk)
      (hunheaded : reliable = true → headed = true → False) :
      Meets reliable (Recoverable headed past)
        (fun result world' => Restarted headed past result world'.disk ∧
          (result.1 = .none → Rebuilt result.2.2 world'.disk) ∧
          (reliable = true → headed = true → truncateOnFail = true → result.1 = .none))
        (return (.storage error, storageWalEmpty, state)) { world with disk } :=
    .pure hrecoverable ⟨.inl ⟨rfl, hrecoverable⟩, by rintro ⟨⟩,
      fun hreliable hheaded => (hunheaded hreliable hheaded).elim⟩
  generalize hd : world.disk = disk at hdisk
  cases hdisk with
  -- A server that was promised a header does not come here.
  | absent unheaded recovered =>
      have hnot : reliable = true → headed = true → False := by simp [unheaded]
      have hnone : headed = true → storageWalHeaderLength ≤ 0 := by simp [unheaded]
      have hfull : headerDisk storageWalHeaderLength =
          ⟨some (storageWalImage [] ++ []), 0, storageWalHeaderLength⟩ := by decide
      have hlimit : (storageWalImage [] ++ []).length ≤ Disk.offsetMax := by decide
      have hempty' : Recoverable headed past (headerDisk storageWalHeaderLength) :=
        hfull ▸ .log .nil recovered (Nat.zero_le _) hnone (Nat.zero_le _) hlimit (by decide)
      have hheader : ∀ count ≤ storageWalHeaderLength,
          Recoverable headed past (headerDisk count) := by
        intro count hcount
        rcases Nat.lt_or_eq_of_le hcount with hshort | rfl
        · exact .header unheaded recovered hshort
        · exact hempty'
      refine .bind (storageWalInit_absent (by rw [hd]) (hseek world.disk.cursor) hheader ?_ ?_ ?_)
      · exact hfailed (hseek world.disk.cursor) hnot
      · intro error count hcount
        exact hfailed (hheader count hcount) hnot
      · refine (storageWalReplay_restarted hempty hfull .nil recovered (Nat.zero_le _) hnone
          (Nat.zero_le _) hlimit (by decide)).weaken ?_
        rintro result world' ⟨hrestarted, hrebuilt, _⟩
        exact ⟨hrestarted, hrebuilt, fun hreliable hheaded => (hnot hreliable hheaded).elim⟩
  | header unheaded recovered short =>
      have hnot : reliable = true → headed = true → False := by simp [unheaded]
      refine .bind (storageWalInit_exists (by rw [hd]; rfl) hseek ?_ ?_)
      · intro _ error
        exact hfailed (hseek world.disk.cursor) hnot
      · refine storageWalInitOpened_short ?_ hseek rfl ?_
        · rw [Disk.seek_bytes, hd, Disk.bytes_some, List.length_take]
          omega
        · intro error offset
          exact hfailed (hseek offset) hnot
  | @log entries tail synced cursor before wellformed recovered covered headed_le synced_le limit
      tail_lt =>
      refine .bind (storageWalInit_exists (by rw [hd]; rfl) hseek ?_ ?_)
      · intro hunreliable error
        exact hfailed (hseek world.disk.cursor) (by simp [hunreliable])
      · have hcontent : (world.disk.seek 0).bytes = storageWalHeader ++
            ((entries.map StorageWalEntry.safe).flatten ++ tail) := by
          rw [Disk.seek_bytes, hd, Disk.bytes_some, storageWalImage, List.append_assoc]
        refine storageWalInitOpened_spec hcontent hseek rfl ?_ ?_
        · intro hunreliable error offset
          exact hfailed (hseek offset) (by simp [hunreliable])
        · refine (storageWalReplay_restarted hempty (by rw [hd]; rfl) wellformed recovered covered
            headed_le synced_le limit tail_lt).weaken ?_
          rintro result world' ⟨hrestarted, hrebuilt, hreliable⟩
          exact ⟨hrestarted, hrebuilt, fun hr _ => hreliable hr⟩

theorem letStart_spec {cli : Cli} (hdisk : Recoverable headed past world.disk) :
    Meets reliable (Recoverable headed past)
      (fun result world' => ∀ point, result = .ok point →
        Holds headed past (observe {} point) point world'.disk ∧
        Rebuilt point.context.state world'.disk) (letStart cli) world := by
  have herror {error : Error} {world' : World} (hdisk : Recoverable headed past world'.disk) :
      Meets reliable (Recoverable headed past)
        (fun (result : Except Error LetRun) world' => ∀ point, result = .ok point →
          Holds headed past (observe {} point) point world'.disk ∧
          Rebuilt point.context.state world'.disk)
        (return .error error) world' := by
    refine .pure hdisk ?_
    rintro _ ⟨⟩
  refine .bind (.bind (accountListNew_spec hdisk ?_ ?_))
  · intro accountList hempty
    refine .bind ((letInitStorage_spec hempty hdisk).during_post.weaken ?_)
    rintro ⟨error, storageWal, state⟩ world₁ ⟨hinstant, hrestarted, hrebuilt, _⟩
    rcases hrestarted with ⟨hexists, _⟩ | ⟨entries, hagrees, hsettled, hnone⟩
    · dsimp only at hexists ⊢
      rw [if_pos hexists]
      exact .pure hinstant (herror hinstant)
    · dsimp only at hnone ⊢
      subst hnone
      rw [if_neg (by decide)]
      refine .bind (networkServerInit_spec hinstant ?_)
      intro error world₂ hdisk₂
      have hinstant₂ : Recoverable headed past world₂.disk := hdisk₂ ▸ hinstant
      split
      · exact .pure hinstant₂ (herror hinstant₂)
      · refine .bind (setAccepting_flags_spec hinstant₂ ?_)
        intro world₃ hflags₃ _ _
        have hdisk₃ : world₃.disk = world₁.disk := hflags₃.disk.trans hdisk₂
        have hinstant₃ : Recoverable headed past world₃.disk := hdisk₃ ▸ hinstant
        refine .pure hinstant₃ (.bind (letRunAccepting_spec hinstant₃ ?_))
        intro point world₄ hended hcontext hflags₄
        refine .pure (hflags₄.disk ▸ hinstant₃) ?_
        rintro _ ⟨rfl⟩
        rw [hflags₄.disk, hdisk₃, hcontext]
        exact ⟨.idle hagrees hsettled hended.idle hcontext, hrebuilt rfl⟩
  · intro _
    exact .pure hdisk (herror hdisk)

/-! ## Whole runs -/

variable {careful : Bool} {cli : Cli} {start : World}

/-- The run lemma of one lifetime. -/
theorem Serves.holds (hserves : Serves careful cli start history point world)
    (hdisk : Recoverable headed past start.disk) : Holds headed past history point world.disk := by
  induction hserves with
  | start started => exact ((letStart_spec hdisk).returns started _ rfl).1
  | step _ stepped ih => exact (letRunStep_spec ih).returns stepped

theorem Instant.recoverable (hinstant : Instant careful cli start history world)
    (hdisk : Recoverable headed past start.disk) :
    Recoverable headed (past ++ [history]) world.disk := by
  cases hinstant with
  | starting passes => exact ((letStart_spec hdisk).passes passes).idle rfl
  | serving served passes => exact (letRunStep_spec (served.holds hdisk)).passes passes

/-- The run lemma of all lifetimes. -/
theorem Lives.recoverable {initial disk : Disk} (hlives : Lives careful initial past disk)
    (hinitial : Recoverable headed [] initial) : Recoverable headed past disk := by
  induction hlives with
  | nil => exact hinitial
  | life _ _ instant crash ih => exact (instant.recoverable ih).crash crash

end Runs

end LetDX.LetDB
