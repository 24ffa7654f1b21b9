import LetDX.LetDB.Network.Encoding

/-! # The encoder and the capacity of its buffer

The capacity is compared before each integer, with the bytes written so far and
the digits of the integer. The kind, the spaces and the newline are written
without a comparison.
-/

namespace LetDX.LetDB

open Bytes

/-- The whole line of a response. -/
def NetworkResponse.line (response : NetworkResponse) : List U8 :=
  [asciiSpace].intercalate response.fields ++ [asciiNewline]

/-- The positions behind fields that start at an offset, with a byte between any two. -/
def fieldEnds : Nat → List (List U8) → List Nat
  | _, [] => []
  | offset, field :: fields =>
      (offset + field.length) :: fieldEnds (offset + field.length + 1) fields

/-- The encoder stays inside its buffer, and succeeds exactly when the line fits. -/
structure EncodesWithin (response : NetworkResponse) (capacity output : Nat) : Prop where
  inside : (networkResponseEncode response capacity output).2.1.length ≤ capacity
  succeeds : (networkResponseEncode response capacity output).1 = .none ↔
    response.line.length ≤ capacity
  line : (networkResponseEncode response capacity output).1 = .none →
    (networkResponseEncode response capacity output).2 = (response.line, response.line.length)
  overflow : (networkResponseEncode response capacity output).1 ≠ .none →
    networkResponseEncode response capacity output =
      (.network .responseBufferOverflow,
        (networkResponseEncode response capacity output).2.1, output)

/-- What the encoder leaves when it appends these fields and the newline. -/
structure Appends (capacity : Nat) (written : List U8) (fields : List (List U8))
    (left : Error × List U8) : Prop where
  whole : written.length + ([asciiSpace].intercalate fields).length ≤ capacity →
    left = (.none, written ++ [asciiSpace].intercalate fields ++ [asciiNewline])
  overflow : capacity < written.length + ([asciiSpace].intercalate fields).length →
    left.1 = .network .responseBufferOverflow
  inside : left.2.length ≤ capacity ↔
    written.length ≤ capacity ∧ capacity ∉ fieldEnds written.length fields

theorem le_of_mem_fieldEnds {offset position : Nat} {fields : List (List U8)}
    (hposition : position ∈ fieldEnds offset fields) : offset ≤ position := by
  induction fields generalizing offset with
  | nil => cases hposition
  | cons field fields ih =>
      rcases List.mem_cons.mp hposition with rfl | hposition
      · exact Nat.le_add_right offset field.length
      · have hle := ih hposition
        omega

theorem networkResponseEncoderRunInteger_cases (capacity : Nat) (written : List U8)
    (size value : Nat) :
    networkResponseEncoderRunInteger capacity written size value =
      if capacity < written.length + (hexadecimal size value).length then
        (.network .responseBufferOverflow, written)
      else (.none, written ++ hexadecimal size value) := by
  have hskip := networkResponseEncoderSkip_le (toLittleEndian size value) size
  have hlength : (hexadecimal size value).length =
      networkResponseEncoderSkip (toLittleEndian size value) size * 2 := by
    change ((_ : List U8).flatMap fun (byte : U8) =>
      [hexDigit (byte >>> 4 &&& 0x0F), hexDigit (byte &&& 0x0F)]).length = _
    rw [length_flatMap_hexDigit, List.length_reverse, List.length_take, length_toLittleEndian,
      Nat.min_eq_left hskip, Nat.mul_comm]
  rw [hlength]
  rfl

namespace Appends

variable {capacity : Nat} {written field : List U8} {fields : List (List U8)}
  {left : Error × List U8}

theorem length_field_le (field : List U8) (fields : List (List U8)) :
    field.length ≤ ([asciiSpace].intercalate (field :: fields)).length := by
  cases fields with
  | nil => rw [List.intercalate_singleton]
  | cons next fields =>
      rw [List.intercalate_cons_cons, List.append_assoc, List.length_append]
      exact Nat.le_add_right field.length _

/-- The first field does not fit, and it is not written. -/
theorem refused (hlong : capacity < written.length + field.length) :
    Appends capacity written (field :: fields) (.network .responseBufferOverflow, written) := by
  have hfield := length_field_le field fields
  refine ⟨fun hfits => by omega, fun _ => rfl, ?_⟩
  refine (and_iff_left_of_imp fun hwritten hmem => ?_).symm
  rcases List.mem_cons.mp hmem with hend | hmem
  · omega
  · have hle := le_of_mem_fieldEnds hmem
    omega

/-- The newline behind the last field is written in any case. -/
theorem last (hfits : written.length + field.length ≤ capacity) :
    Appends capacity written [field] (.none, written ++ field ++ [asciiNewline]) := by
  have hline : [asciiSpace].intercalate [field] = field := List.intercalate_singleton
  refine ⟨fun _ => by rw [hline], fun hlong => ?_, ?_⟩
  · rw [hline] at hlong
    omega
  · rw [List.length_append, List.length_append, List.length_singleton, fieldEnds, fieldEnds,
      List.mem_singleton]
    omega

/-- The space behind a field that fits is written in any case. -/
theorem next {following : List U8} (hfits : written.length + field.length ≤ capacity)
    (happends : Appends capacity (written ++ field ++ [asciiSpace]) (following :: fields) left) :
    Appends capacity written (field :: following :: fields) left := by
  obtain ⟨hwhole, hoverflow, hinside⟩ := happends
  have hlength : (written ++ field ++ [asciiSpace]).length = written.length + field.length + 1 := by
    rw [List.length_append, List.length_append, List.length_singleton]
  have hline : written.length + ([asciiSpace].intercalate (field :: following :: fields)).length =
      (written ++ field ++ [asciiSpace]).length +
        ([asciiSpace].intercalate (following :: fields)).length := by
    rw [hlength, List.intercalate_cons_cons, List.length_append, List.length_append,
      List.length_singleton]
    omega
  refine ⟨?_, ?_, ?_⟩
  · intro hroom
    rw [hwhole (hline ▸ hroom), List.intercalate_cons_cons]
    simp only [List.append_assoc]
  · intro hlong
    exact hoverflow (hline ▸ hlong)
  · have hends : fieldEnds written.length (field :: following :: fields) =
        (written.length + field.length) ::
          fieldEnds (written.length + field.length + 1) (following :: fields) := rfl
    rw [hinside, hlength, hends, List.mem_cons, not_or]
    refine ⟨fun hroom => ⟨by omega, by omega, hroom.2⟩, fun hroom => ⟨by omega, hroom.2.2⟩⟩

end Appends

theorem networkResponseEncoderRunIntegers_appends (capacity : Nat) (written : List U8)
    (integer : Nat × Nat) (integers : List (Nat × Nat)) :
    Appends capacity written
      ((integer :: integers).map fun (size, value) => hexadecimal size value)
      (networkResponseEncoderRunIntegers capacity written (integer :: integers)) := by
  induction integers generalizing integer written with
  | nil =>
      obtain ⟨size, value⟩ := integer
      rw [networkResponseEncoderRunIntegers, networkResponseEncoderRunInteger_cases]
      by_cases hlong : capacity < written.length + (hexadecimal size value).length
      · rw [if_pos hlong]
        exact .refused hlong
      · rw [if_neg hlong]
        exact .last (Nat.not_lt.mp hlong)
  | cons following integers ih =>
      obtain ⟨size, value⟩ := integer
      rw [networkResponseEncoderRunIntegers, networkResponseEncoderRunInteger_cases]
      by_cases hlong : capacity < written.length + (hexadecimal size value).length
      · rw [if_pos hlong]
        exact .refused hlong
      · rw [if_neg hlong]
        exact .next (Nat.not_lt.mp hlong) (ih _ following)

/-- The last of the positions is the length of the fields and the spaces. -/
theorem length_mem_fieldEnds (offset : Nat) (field : List U8) (fields : List (List U8)) :
    offset + ([asciiSpace].intercalate (field :: fields)).length ∈
      fieldEnds offset (field :: fields) := by
  induction fields generalizing offset field with
  | nil =>
      rw [List.intercalate_singleton]
      exact List.mem_cons_self ..
  | cons following fields ih =>
      have hlast := ih (offset + field.length + 1) following
      have hlength : offset + ([asciiSpace].intercalate (field :: following :: fields)).length =
          offset + field.length + 1 + ([asciiSpace].intercalate (following :: fields)).length := by
        rw [List.intercalate_cons_cons, List.length_append, List.length_append,
          List.length_singleton]
        omega
      rw [hlength]
      exact List.mem_cons_of_mem _ hlast

section Responses

variable {response : NetworkResponse} {capacity : Nat}

/-- A response without integers is written without a comparison. -/
theorem networkResponseEncoderRun_plain (capacity : Nat) (hplain : response.integers = []) :
    networkResponseEncoderRun response capacity = (.none, response.line) := by
  cases response with
  | magic => rfl
  | ok => rfl
  | addAccount => cases hplain
  | getAccount => cases hplain
  | countDatabase => cases hplain
  | error => cases hplain

theorem networkResponseEncoderRun_appends (capacity : Nat) (hintegers : response.integers ≠ []) :
    Appends capacity (response.kind ++ [asciiSpace])
      (response.integers.map fun (size, value) => hexadecimal size value)
      (networkResponseEncoderRun response capacity) := by
  cases response with
  | magic => exact (hintegers rfl).elim
  | ok => exact (hintegers rfl).elim
  | addAccount => exact networkResponseEncoderRunIntegers_appends ..
  | getAccount => exact networkResponseEncoderRunIntegers_appends ..
  | countDatabase => exact networkResponseEncoderRunIntegers_appends ..
  | error => exact networkResponseEncoderRunIntegers_appends ..

theorem length_kind (response : NetworkResponse) : response.kind.length = 3 := by
  cases response <;> rfl

theorem networkResponseEncode_written (output : Nat) :
    (networkResponseEncode response capacity output).2.1 =
      (networkResponseEncoderRun response capacity).2 := by
  rw [networkResponseEncode]
  dsimp only
  split <;> rfl

theorem networkResponseEncode_of_none {written : List U8} (output : Nat)
    (hrun : networkResponseEncoderRun response capacity = (.none, written)) :
    networkResponseEncode response capacity output = (.none, written, written.length) := by
  rw [networkResponseEncode, hrun]
  rfl

theorem networkResponseEncode_of_overflow (output : Nat)
    (hrun : (networkResponseEncoderRun response capacity).1 = .network .responseBufferOverflow) :
    networkResponseEncode response capacity output = (.network .responseBufferOverflow,
      (networkResponseEncoderRun response capacity).2, output) := by
  rw [networkResponseEncode]
  dsimp only
  rw [hrun]
  rfl

/-- The encoder does what it should if it stays inside just under a condition on
which the outcome follows the length of the line. -/
theorem encodesWithin_iff_of {condition : Prop} (output : Nat)
    (hinside : (networkResponseEncoderRun response capacity).2.length ≤ capacity ↔ condition)
    (hwhole : condition → response.line.length ≤ capacity →
      networkResponseEncoderRun response capacity = (.none, response.line))
    (hoverflow : condition → capacity < response.line.length →
      (networkResponseEncoderRun response capacity).1 = .network .responseBufferOverflow) :
    EncodesWithin response capacity output ↔ condition := by
  rw [← networkResponseEncode_written output] at hinside
  refine ⟨fun hwithin => hinside.mp hwithin.inside, fun hcondition => ?_⟩
  by_cases hfits : response.line.length ≤ capacity
  · have hencode := networkResponseEncode_of_none output (hwhole hcondition hfits)
    refine ⟨hinside.mpr hcondition, ?_, ?_, ?_⟩
    · rw [hencode]
      exact iff_of_true rfl hfits
    · intro _
      rw [hencode]
    · intro herror
      rw [hencode] at herror
      exact (herror rfl).elim
  · have hencode := networkResponseEncode_of_overflow output
      (hoverflow hcondition (Nat.not_le.mp hfits))
    refine ⟨hinside.mpr hcondition, ?_, ?_, ?_⟩
    · rw [hencode]
      exact iff_of_false (fun hnone => by cases hnone) hfits
    · intro hnone
      rw [hencode] at hnone
      cases hnone
    · intro _
      rw [hencode]

/-- The line of a response with integers, its length, and the position before the newline. -/
theorem line_of_integers (hintegers : response.integers ≠ []) :
    let digits := response.integers.map fun (size, value) => hexadecimal size value
    response.line.length = 4 + ([asciiSpace].intercalate digits).length + 1 ∧
      response.kind ++ [asciiSpace] ++ [asciiSpace].intercalate digits ++ [asciiNewline] =
        response.line ∧
      4 + ([asciiSpace].intercalate digits).length ∈ fieldEnds 4 digits := by
  intro digits
  obtain ⟨integer, integers, hcons⟩ := List.exists_cons_of_ne_nil hintegers
  have hline : response.kind ++ [asciiSpace] ++ [asciiSpace].intercalate digits ++ [asciiNewline] =
      response.line := by
    rw [NetworkResponse.line, NetworkResponse.fields]
    simp only [digits, hcons, List.map_cons, List.intercalate_cons_cons]
  refine ⟨?_, hline, ?_⟩
  · rw [← hline]
    simp only [List.length_append, List.length_singleton, length_kind]
  · simp only [digits, hcons, List.map_cons]
    exact length_mem_fieldEnds ..

/-- The encoder stays inside a buffer just when there is room for the kind and the
capacity is not the position behind a field. -/
theorem encodesWithin_iff (response : NetworkResponse) (capacity output : Nat) :
    EncodesWithin response capacity output ↔
      4 ≤ capacity ∧ capacity ∉ fieldEnds 0 response.fields := by
  have hkind := length_kind response
  by_cases hintegers : response.integers = []
  · have hrun := networkResponseEncoderRun_plain capacity hintegers
    have hfields : response.fields = [response.kind] := by
      rw [NetworkResponse.fields, hintegers, List.map_nil]
    have hlength : response.line.length = 4 := by
      rw [NetworkResponse.line, hfields, List.intercalate_singleton, List.length_append, hkind]
      rfl
    have hend : capacity ∉ fieldEnds 0 [response.kind] ↔ capacity ≠ 3 := by
      rw [fieldEnds, fieldEnds, List.mem_singleton, hkind]
    rw [hfields, hend]
    refine encodesWithin_iff_of output ?_ (fun _ _ => hrun) ?_
    · rw [hrun, hlength]
      omega
    · intro hroom hlong
      omega
  · obtain ⟨hwhole, hoverflow, hinside⟩ := networkResponseEncoderRun_appends capacity hintegers
    obtain ⟨hlength, hline, hend⟩ := line_of_integers hintegers
    have hwritten : (response.kind ++ [asciiSpace]).length = 4 := by
      rw [List.length_append, hkind, List.length_singleton]
    have hends : fieldEnds 0 response.fields = 3 :: fieldEnds 4
        (response.integers.map fun (size, value) => hexadecimal size value) := by
      rw [NetworkResponse.fields, fieldEnds, hkind]
    rw [hwritten] at hwhole hoverflow hinside
    rw [hends, List.mem_cons, not_or]
    refine encodesWithin_iff_of output ?_ ?_ ?_
    · rw [hinside]
      refine and_congr_right fun hroom => ?_
      exact (and_iff_right (by omega)).symm
    · intro _ hfits
      rw [hwhole (by omega), hline]
    -- A line without its newline does not just fit.
    · intro hroom hlong
      refine hoverflow (Nat.lt_of_le_of_ne (by omega) ?_)
      rintro rfl
      exact hroom.2.2 hend

end Responses

/-- A buffer of forty bytes has room for all of this line but the newline, which is
written behind it. -/
theorem newline_behind_buffer :
    let response := NetworkResponse.getAccount 0xFFAAFFBBEEDDCCD 0x1337133769C0FFEE 0xFF
    ¬EncodesWithin response 40 0 ∧ (networkResponseEncode response 40 0).1 = .none ∧
      (networkResponseEncode response 40 0).2.1.length = 41 := by
  intro response
  have hencode : (networkResponseEncode response 40 0).1 = .none ∧
      (networkResponseEncode response 40 0).2.1.length = 41 := by
    decide +kernel
  refine ⟨fun hwithin => ?_, hencode⟩
  have hinside := hwithin.inside
  rw [hencode.2] at hinside
  exact absurd hinside (by decide)

end LetDX.LetDB
