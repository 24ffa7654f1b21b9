import LetDX.LetDB.Network.Server

/-! # Encoding of the responses

The line of a response is its kind and its integers in hexadecimal, with single
spaces between them and a newline at the end. It always fits in the buffer.
-/

namespace LetDX.LetDB

open Bytes

/-- The two digits of a byte. -/
def hexByte (byte : U8) : List U8 :=
  [hexDigit (byte >>> 4 &&& 0x0F), hexDigit (byte &&& 0x0F)]

/-- The digits of an integer of `size` bytes, without its leading zero bytes. -/
def hexadecimal (size value : Nat) : List U8 :=
  ((toLittleEndian size value).take
    (networkResponseEncoderSkip (toLittleEndian size value) size)).reverse.flatMap hexByte

namespace NetworkResponse

def kind : NetworkResponse → List U8
  | magic => ascii ['L', 'E', 'T']
  | addAccount _ => ascii ['A', 'I', 'D']
  | getAccount .. => ascii ['A', 'C', 'C']
  | countDatabase .. => ascii ['L', 'E', 'N']
  | ok => ascii ['O', 'K', 'E']
  | error _ => ascii ['E', 'R', 'R']

/-- The integers of a response, each with its size in bytes. -/
def integers : NetworkResponse → List (Nat × Nat)
  | magic | ok => []
  | addAccount accountId => [(8, accountId.toNat)]
  | getAccount credits debits flags => [(16, credits.toNat), (16, debits.toNat), (1, flags.toNat)]
  | countDatabase accounts entries => [(8, accounts.toNat), (8, entries.toNat)]
  | error reason => [(2, (errorCode reason).toNat)]

def fields (response : NetworkResponse) : List (List U8) :=
  response.kind :: response.integers.map fun (size, value) => hexadecimal size value

end NetworkResponse

/-! ## Leading zero bytes -/

theorem networkResponseEncoderSkip_pos (bytes : List U8) {size : Nat} (hsize : 0 < size) :
    0 < networkResponseEncoderSkip bytes size := by
  fun_induction networkResponseEncoderSkip bytes size with
  | case1 => exact hsize
  | case2 => exact Nat.one_pos
  | case3 skip hzero ih => exact ih (Nat.succ_pos skip)
  | case4 => exact Nat.succ_pos _

theorem ofLittleEndian_concat_zero (bytes : List U8) :
    ofLittleEndian (bytes ++ [0]) = ofLittleEndian bytes := by
  induction bytes with
  | nil => rfl
  | cons byte bytes ih => rw [List.cons_append, ofLittleEndian, ih, ofLittleEndian]

/-- The bytes that are skipped do not change the value. -/
theorem ofLittleEndian_take_skip (bytes : List U8) (size : Nat) (hsize : size ≤ bytes.length) :
    ofLittleEndian (bytes.take (networkResponseEncoderSkip bytes size)) =
      ofLittleEndian (bytes.take size) := by
  fun_induction networkResponseEncoderSkip bytes size with
  | case1 => rfl
  | case2 => rfl
  | case3 skip hzero ih =>
      have hlast : bytes[skip + 1] = 0 := by
        rwa [List.getD_eq_getElem?_getD, List.getElem?_eq_getElem, Option.getD_some] at hzero
      rw [ih (Nat.le_of_succ_le hsize), List.take_succ_eq_append_getElem hsize, hlast,
        ofLittleEndian_concat_zero]
  | case4 => rfl

theorem hexadecimal_ne_nil {size value : Nat} (hsize : 0 < size) : hexadecimal size value ≠ [] := by
  have hskip := networkResponseEncoderSkip_pos (toLittleEndian size value) hsize
  intro hnil
  have hlength := congrArg List.length hnil
  change ((_ : List U8).flatMap fun (byte : U8) =>
    [hexDigit (byte >>> 4 &&& 0x0F), hexDigit (byte &&& 0x0F)]).length = _ at hlength
  rw [length_flatMap_hexDigit, List.length_reverse, List.length_take, length_toLittleEndian,
    List.length_nil] at hlength
  omega

theorem length_hexadecimal_le (size value : Nat) : (hexadecimal size value).length ≤ 2 * size := by
  have hskip := networkResponseEncoderSkip_le (toLittleEndian size value) size
  change ((_ : List U8).flatMap fun (byte : U8) =>
    [hexDigit (byte >>> 4 &&& 0x0F), hexDigit (byte &&& 0x0F)]).length ≤ _
  rw [length_flatMap_hexDigit, List.length_reverse, List.length_take, length_toLittleEndian]
  omega

/-- Every byte of a numeral is one of the digits. -/
theorem mem_hexadecimal {size value : Nat} {byte : U8} (hmem : byte ∈ hexadecimal size value) :
    byte ∈ networkResponseEncoderHexDigits := by
  have hdigits : ∀ value < 256,
      hexDigit (BitVec.ofNat 8 value >>> 4 &&& 0x0F) ∈ networkResponseEncoderHexDigits ∧
        hexDigit (BitVec.ofNat 8 value &&& 0x0F) ∈ networkResponseEncoderHexDigits := by
    decide +kernel
  obtain ⟨whole, _, hmem⟩ := List.mem_flatMap.mp hmem
  obtain ⟨hhigh, hlow⟩ := hdigits whole.toNat whole.isLt
  rw [BitVec.ofNat_toNat, BitVec.setWidth_eq] at hhigh hlow
  rcases List.mem_cons.mp hmem with rfl | hmem
  · exact hhigh
  · obtain rfl := List.mem_singleton.mp hmem
    exact hlow

/-! ## The encoder -/

theorem networkResponseEncoderRunInteger_eq {capacity size value : Nat} {written : List U8}
    (hroom : written.length + 2 * size ≤ capacity) :
    networkResponseEncoderRunInteger capacity written size value =
      (.none, written ++ hexadecimal size value) := by
  have hskip := networkResponseEncoderSkip_le (toLittleEndian size value) size
  unfold networkResponseEncoderRunInteger
  dsimp only
  rw [if_neg (by omega)]
  rfl

theorem networkResponseEncoderRunIntegers_eq {capacity : Nat} {written : List U8}
    (integer : Nat × Nat) (integers : List (Nat × Nat))
    (hroom : written.length + ((integer :: integers).map fun integer => 2 * integer.1 + 1).sum ≤
      capacity) :
    networkResponseEncoderRunIntegers capacity written (integer :: integers) =
      (.none, written ++
        [asciiSpace].intercalate
          ((integer :: integers).map fun (size, value) => hexadecimal size value) ++
        [asciiNewline]) := by
  induction integers generalizing integer written with
  | nil =>
      obtain ⟨size, value⟩ := integer
      simp only [List.map_cons, List.map_nil, List.sum_cons, List.sum_nil] at hroom
      rw [networkResponseEncoderRunIntegers, networkResponseEncoderRunInteger_eq (by omega)]
      simp [errorExists, ascii, asciiNewline]
  | cons next integers ih =>
      obtain ⟨size, value⟩ := integer
      have hlength := length_hexadecimal_le size value
      simp only [List.map_cons, List.sum_cons] at hroom
      rw [networkResponseEncoderRunIntegers, networkResponseEncoderRunInteger_eq (by omega)]
      dsimp only
      rw [if_neg (by decide), if_neg (by simp), ih]
      · simp [ascii, asciiSpace]
      · simp only [List.map_cons, List.sum_cons, List.length_append, length_ascii,
          List.length_singleton]
        omega

open NetworkResponse in
/-- Encoding succeeds, with the fields and a newline. -/
theorem networkResponseEncoderRun_eq (response : NetworkResponse) :
    networkResponseEncoderRun response networkBufferLength =
      (.none, [asciiSpace].intercalate response.fields ++ [asciiNewline]) := by
  have hwhole {written : List U8} (kind : List U8) (integer : Nat × Nat)
      (integers : List (Nat × Nat)) (hwritten : written = kind ++ [asciiSpace])
      (hroom : written.length + ((integer :: integers).map fun integer => 2 * integer.1 + 1).sum ≤
        networkBufferLength) :
      networkResponseEncoderRunIntegers networkBufferLength written (integer :: integers) =
        (.none, [asciiSpace].intercalate
          (kind :: (integer :: integers).map fun (size, value) => hexadecimal size value) ++
          [asciiNewline]) := by
    rw [networkResponseEncoderRunIntegers_eq integer integers hroom, hwritten]
    simp
  cases response with
  | magic => simp [networkResponseEncoderRun, fields, kind, integers, ascii, asciiNewline]
  | ok => simp [networkResponseEncoderRun, fields, kind, integers, ascii, asciiNewline]
  | addAccount | getAccount | countDatabase | error =>
      simp only [networkResponseEncoderRun]
      exact hwhole _ _ _ rfl (by simp [networkBufferLength])

theorem NetworkResponse.bytes_eq (response : NetworkResponse) :
    response.bytes = [asciiSpace].intercalate response.fields ++ [asciiNewline] := by
  rw [bytes, networkResponseEncoderRun_eq]

/-- The fields have digits and letters only. -/
theorem NetworkResponse.mem_fields {response : NetworkResponse} {field : List U8} {byte : U8}
    (hfield : field ∈ response.fields) (hbyte : byte ∈ field) :
    byte ∈ networkResponseEncoderHexDigits ∨
      byte ∈ ascii ['L', 'E', 'T', 'A', 'I', 'D', 'C', 'N', 'O', 'K', 'R'] := by
  rcases List.mem_cons.mp hfield with rfl | hfield
  · have hletters : response.kind ⊆
        ascii ['L', 'E', 'T', 'A', 'I', 'D', 'C', 'N', 'O', 'K', 'R'] := by
      cases response <;> simp only [kind] <;> decide
    exact .inr (hletters hbyte)
  · obtain ⟨integer, _, rfl⟩ := List.mem_map.mp hfield
    exact .inl (mem_hexadecimal hbyte)

theorem mem_of_mem_intercalate {byte : U8} {fields : List (List U8)}
    (hmem : byte ∈ [asciiSpace].intercalate fields) :
    byte = asciiSpace ∨ ∃ field ∈ fields, byte ∈ field := by
  induction fields with
  | nil => nomatch hmem
  | cons field fields ih =>
      cases fields with
      | nil =>
          rw [List.intercalate_singleton] at hmem
          exact .inr ⟨field, List.mem_cons_self .., hmem⟩
      | cons next fields =>
          rw [List.intercalate_cons_cons] at hmem
          rcases List.mem_append.mp hmem with hmem | hmem
          · rcases List.mem_append.mp hmem with hmem | hmem
            · exact .inr ⟨field, List.mem_cons_self .., hmem⟩
            · exact .inl (List.mem_singleton.mp hmem)
          · rcases ih hmem with hspace | ⟨other, hother, hbyte⟩
            · exact .inl hspace
            · exact .inr ⟨other, List.mem_cons_of_mem _ hother, hbyte⟩

/-- The newline of a response is its last byte only. -/
theorem NetworkResponse.exists_bytes_eq (response : NetworkResponse) :
    ∃ body, response.bytes = body ++ [asciiNewline] ∧ asciiNewline ∉ body := by
  have hnewline : asciiNewline ∉ networkResponseEncoderHexDigits ∧
      asciiNewline ∉ ascii ['L', 'E', 'T', 'A', 'I', 'D', 'C', 'N', 'O', 'K', 'R'] ∧
      asciiNewline ≠ asciiSpace := by decide
  obtain ⟨hdigits, hletters, hspace⟩ := hnewline
  refine ⟨_, response.bytes_eq, ?_⟩
  intro hmem
  rcases mem_of_mem_intercalate hmem with heq | ⟨field, hfield, hbyte⟩
  · exact hspace heq
  · rcases mem_fields hfield hbyte with hmem | hmem
    · exact hdigits hmem
    · exact hletters hmem

end LetDX.LetDB
