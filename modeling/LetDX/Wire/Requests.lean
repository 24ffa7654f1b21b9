import LetDX.LetDB.Network.Reading
import LetDX.LetDD.Tcp.Request

/-! # Requests between the two programs

What the proxy encodes is the canonical line of the request meant, and reading
the lines one after the other gives the requests back.
-/

namespace LetDX

open Bytes Effects

/-- The request of the server that a request of the proxy means. -/
def LetDD.Request.meaning : LetDD.Request → LetDB.NetworkRequest
  | magic => .magic
  | addAccount walID credits debits flags =>
      .addAccount walID credits.toU128 debits.toU128 flags
  | makeTransfer walID fromID toID amount => .makeTransfer walID fromID toID amount.toU128
  | getAccount accountID => .getAccount accountID
  | countDatabase => .countDatabase
  | updateAccount walID accountID flags => .updateAccount walID accountID flags
  | close => .close

theorem LetDD.Uint128.bytes_eq_decimal (u : Uint128) :
    u.bytes = some (decimal u.toU128.toNat) := by
  rw [u.bytes_eq, u.toNat_toU128]

/-- Encoding never panics. -/
theorem LetDD.Request.encode_eq (request : LetDD.Request) :
    request.encode = some (request.meaning.line ++ [LetDB.asciiNewline]) := by
  cases request with
  | magic | countDatabase | close => rfl
  | getAccount accountID => rfl
  | updateAccount walID accountID flags => rfl
  | addAccount walID credits debits flags =>
      rw [encode, credits.bytes_eq_decimal, debits.bytes_eq_decimal]
      rfl
  | makeTransfer walID fromID toID amount =>
      rw [encode, amount.bytes_eq_decimal]
      rfl

open LetDB in
/-- Whatever requests the proxy encodes, the server reads them back in order and
to the last byte, and no line comes near the length of the buffer. -/
theorem requests_round_trip (requests : List LetDD.Request) : ∃ lines : List (List U8),
    requests.mapM LetDD.Request.encode = some lines ∧
    (∀ line ∈ lines, line.length ≤ 106) ∧
    ∀ world : World, (connected lines.flatten).Ensures (fun _ => True)
      (fun results world' =>
        results = (requests.map fun request => (Error.none, request.meaning)) ∧
        world'.received = lines.flatten)
      (networkClientReads requests.length) { world with received := [] } := by
  let encoded (request : LetDD.Request) : List U8 := request.meaning.line ++ [asciiNewline]
  refine ⟨requests.map encoded, ?_, ?_, ?_⟩
  · induction requests with
    | nil => rfl
    | cons request requests ih =>
        rw [List.mapM_cons, request.encode_eq, ih]
        rfl
  · intro line hmem
    obtain ⟨request, _, rfl⟩ := List.mem_map.mp hmem
    rw [List.length_append, List.length_singleton]
    exact Nat.succ_le_succ request.meaning.length_line_le
  · intro world
    have hlines : requests.map encoded =
        (requests.map LetDD.Request.meaning).map fun request => request.line ++ [asciiNewline] := by
      rw [List.map_map]
      rfl
    rw [hlines, ← requests.length_map LetDD.Request.meaning]
    apply networkClientReads_requests _ []
    · rw [List.nil_append, List.append_nil]
    · rw [List.map_map, List.nil_append]
      exact ⟨rfl, rfl⟩

end LetDX
