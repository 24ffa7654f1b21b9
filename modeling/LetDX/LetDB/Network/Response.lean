import LetDX.Bytes.LittleEndian
import LetDX.LetDB.Error

/-! # Responses and their encoder -/

namespace LetDX.LetDB

open Bytes

/-- `let_network_response_t`: the type of a response with the member of the union. -/
inductive NetworkResponse
  | magic
  | addAccount (accountId : U64)
  | getAccount (credits debits : U128) (flags : U8)
  | countDatabase (accounts entries : U64)
  | ok
  | error (error : Error)
  deriving DecidableEq, Repr

def networkResponseEmpty : NetworkResponse := .magic

def ascii (text : List Char) : List U8 :=
  text.map fun character => BitVec.ofNat 8 character.toNat

@[simp] theorem length_ascii (text : List Char) : (ascii text).length = text.length := by
  simp [ascii]

/-- `LET_NETWORK_RESPONSE_ENCODER_HEX_DIGITS` -/
def networkResponseEncoderHexDigits : List U8 :=
  ascii ['0', '1', '2', '3', '4', '5', '6', '7', '8', '9', 'A', 'B', 'C', 'D', 'E', 'F']

def hexDigit (value : U8) : U8 :=
  networkResponseEncoderHexDigits.getD value.toNat 0

/-- The number of bytes left of an integer without its leading zero bytes. -/
def networkResponseEncoderSkip (bytes : List U8) : Nat → Nat
  | 0 => 0
  | 1 => 1
  | skip + 2 =>
      if bytes.getD (skip + 1) 0 = 0 then networkResponseEncoderSkip bytes (skip + 1)
      else skip + 2

/-- Append an integer of `size` bytes in hexadecimal. The result holds what has
been written to the buffer. -/
def networkResponseEncoderRunInteger (capacity : Nat) (written : List U8) (size value : Nat) :
    Error × List U8 :=
  let bytes := toLittleEndian size value
  let skip := networkResponseEncoderSkip bytes size
  if written.length + skip * 2 > capacity then (.network .responseBufferOverflow, written)
  else (.none, written ++ (bytes.take skip).reverse.flatMap fun (byte : U8) =>
    [hexDigit (byte >>> 4 &&& 0x0F), hexDigit (byte &&& 0x0F)])

theorem networkResponseEncoderSkip_le (bytes : List U8) (size : Nat) :
    networkResponseEncoderSkip bytes size ≤ size := by
  fun_induction networkResponseEncoderSkip bytes size with
  | case1 => exact le_rfl
  | case2 => exact le_rfl
  | case3 skip hzero ih => omega
  | case4 skip hdigit => exact le_rfl

theorem length_flatMap_hexDigit (bytes : List U8) :
    (bytes.flatMap fun (byte : U8) =>
      [hexDigit (byte >>> 4 &&& 0x0F), hexDigit (byte &&& 0x0F)]).length = 2 * bytes.length := by
  induction bytes with
  | nil => rfl
  | cons byte bytes ih =>
      rw [List.flatMap_cons, List.length_append, ih]
      simp
      omega

/-- An integer takes at most two digits for each of its bytes. -/
theorem length_networkResponseEncoderRunInteger_le (capacity : Nat) (written : List U8)
    (size value : Nat) :
    (networkResponseEncoderRunInteger capacity written size value).2.length ≤
      written.length + 2 * size := by
  have hskip := networkResponseEncoderSkip_le (toLittleEndian size value) size
  unfold networkResponseEncoderRunInteger
  simp only
  split
  · exact Nat.le_add_right _ _
  · rw [List.length_append, length_flatMap_hexDigit, List.length_reverse, List.length_take,
      length_toLittleEndian]
    omega

/-- Integers with a space between any two, and the newline. -/
def networkResponseEncoderRunIntegers (capacity : Nat) (written : List U8) :
    List (Nat × Nat) → Error × List U8
  | [] => (.none, written ++ ascii ['\n'])
  | (size, value) :: rest =>
      let (error, written) := networkResponseEncoderRunInteger capacity written size value
      if errorExists error then (error, written)
      else if rest.isEmpty then (error, written ++ ascii ['\n'])
      else networkResponseEncoderRunIntegers capacity (written ++ ascii [' ']) rest

theorem length_networkResponseEncoderRunIntegers_le (capacity : Nat) (written : List U8)
    (integers : List (Nat × Nat)) :
    (networkResponseEncoderRunIntegers capacity written integers).2.length ≤
      written.length + (integers.map fun integer => 2 * integer.1 + 1).sum + 1 := by
  induction integers generalizing written with
  | nil => simp [networkResponseEncoderRunIntegers]
  | cons integer rest ih =>
      obtain ⟨size, value⟩ := integer
      have hinteger := length_networkResponseEncoderRunInteger_le capacity written size value
      simp only [networkResponseEncoderRunIntegers, List.map_cons, List.sum_cons]
      split
      · dsimp only
        omega
      · split
        · simp only [List.length_append, length_ascii, List.length_singleton]
          omega
        · have hrest := ih ((networkResponseEncoderRunInteger capacity written size value).2 ++
            ascii [' '])
          rw [List.length_append, length_ascii, List.length_singleton] at hrest
          omega

/-- The error of the encoder and everything it has written to the buffer, which
is checked against the capacity only before an integer. -/
def networkResponseEncoderRun (response : NetworkResponse) (capacity : Nat) : Error × List U8 :=
  match response with
  | .magic => (.none, ascii ['L', 'E', 'T', '\n'])
  | .addAccount accountId =>
      networkResponseEncoderRunIntegers capacity (ascii ['A', 'I', 'D', ' '])
        [(8, accountId.toNat)]
  | .getAccount credits debits flags =>
      networkResponseEncoderRunIntegers capacity (ascii ['A', 'C', 'C', ' '])
        [(16, credits.toNat), (16, debits.toNat), (1, flags.toNat)]
  | .countDatabase accounts entries =>
      networkResponseEncoderRunIntegers capacity (ascii ['L', 'E', 'N', ' '])
        [(8, accounts.toNat), (8, entries.toNat)]
  | .ok => (.none, ascii ['O', 'K', 'E', '\n'])
  | .error error =>
      networkResponseEncoderRunIntegers capacity (ascii ['E', 'R', 'R', ' '])
        [(2, (errorCode error).toNat)]

/-- The error, what has been written, and the length, which a failure leaves as it was. -/
def networkResponseEncode (response : NetworkResponse) (capacity output : Nat) :
    Error × List U8 × Nat :=
  let (error, written) := networkResponseEncoderRun response capacity
  if errorExists error then (error, written, output) else (error, written, written.length)

/-- Every response has room in the buffer. -/
theorem length_networkResponseEncoderRun_le (response : NetworkResponse) (capacity : Nat) :
    (networkResponseEncoderRun response capacity).2.length ≤ 128 := by
  cases response with
  | magic => simp [networkResponseEncoderRun]
  | ok => simp [networkResponseEncoderRun]
  | addAccount => exact (length_networkResponseEncoderRunIntegers_le _ _ _).trans (by simp)
  | getAccount => exact (length_networkResponseEncoderRunIntegers_le _ _ _).trans (by simp)
  | countDatabase => exact (length_networkResponseEncoderRunIntegers_le _ _ _).trans (by simp)
  | error => exact (length_networkResponseEncoderRunIntegers_le _ _ _).trans (by simp)

example : networkResponseEncoderRun (.addAccount 0x1AB) 128 =
    (.none, ascii ['A', 'I', 'D', ' ', '0', '1', 'A', 'B', '\n']) := by decide

end LetDX.LetDB
