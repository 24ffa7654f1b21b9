import LetDX.LetDB.Network.Fields

/-! # The language of the decoder

A line that is accepted has its command, and then as many fields of digits and
underscores as the command has arguments, each with a space behind it. The
fields are what stands between single spaces, and nothing asks them for a digit.
-/

namespace LetDX.LetDB

/-! ## Errors -/

/-- The errors that this comes to all have the request rejected. -/
def Rejects {α : Type} (result : Except Error α) : Prop :=
  ∀ error, result = .error error → (errorReport error).action = .reject

section Rejects

variable {α β : Type}

theorem rejects_ok (value : α) : Rejects (.ok value) := nofun

theorem rejects_error {error : Error} (haction : (errorReport error).action = .reject) :
    Rejects (.error error : Except Error α) := by
  rintro _ ⟨⟩
  exact haction

theorem Rejects.map {result : Except Error α} (hresult : Rejects result) (f : α → β) :
    Rejects (result.map f) := by
  cases result with
  | ok value => exact rejects_ok _
  | error error => exact rejects_error (hresult error rfl)

theorem rejects_parseU128 (argc : Nat) (byte : U8) (output : U128) :
    Rejects (networkRequestDecoderParseU128 argc byte output) := by
  unfold networkRequestDecoderParseU128
  dsimp only
  repeat' split
  all_goals first | exact rejects_ok _ | exact rejects_error rfl

theorem rejects_parseNarrow {bits : Nat} (argc : Nat) (byte : U8) (output : BitVec bits) :
    Rejects (networkRequestDecoderParseNarrow bits argc byte output) := by
  have hwide := rejects_parseU128 argc byte (output.setWidth 128)
  unfold networkRequestDecoderParseNarrow
  split
  next error herror => exact rejects_error (hwide error herror)
  next =>
    split
    · exact rejects_error rfl
    · exact rejects_ok _

theorem rejects_runValue (decoder : NetworkRequestDecoder) (byte : U8) :
    Rejects (networkRequestDecoderRunValue decoder byte) := by
  unfold networkRequestDecoderRunValue
  dsimp only
  repeat' split
  all_goals first | exact rejects_ok _ | apply Rejects.map
  all_goals first | apply rejects_parseNarrow | apply rejects_parseU128

theorem rejects_runArgument (decoder : NetworkRequestDecoder) (byte : U8) :
    Rejects (networkRequestDecoderRunArgument decoder byte) := by
  unfold networkRequestDecoderRunArgument
  split
  · split
    · exact rejects_ok _
    · exact rejects_error rfl
  · split
    · exact rejects_ok _
    · exact rejects_runValue decoder byte

theorem rejects_runCommand (decoder : NetworkRequestDecoder) (byte : U8) :
    Rejects (networkRequestDecoderRunCommand decoder byte) := by
  unfold networkRequestDecoderRunCommand
  dsimp only
  repeat' split
  all_goals first | exact rejects_ok _ | exact rejects_error rfl

theorem rejects_runBytes (decoder : NetworkRequestDecoder) (bytes : List U8) :
    Rejects (networkRequestDecoderRunBytes decoder bytes) := by
  induction bytes generalizing decoder with
  | nil => exact rejects_ok _
  | cons byte bytes ih =>
      rw [networkRequestDecoderRunBytes]
      split
      · split
        next error herror => exact rejects_error (rejects_runCommand decoder byte error herror)
        next => exact ih _
      · split
        next error herror => exact rejects_error (rejects_runArgument decoder byte error herror)
        next => exact ih _
      · exact rejects_ok _

theorem rejects_run (buffer : List U8) : Rejects (networkRequestDecoderRun buffer) := by
  unfold networkRequestDecoderRun
  split
  · exact rejects_error rfl
  split
  next error herror => exact rejects_error (rejects_runBytes _ _ error herror)
  next =>
    split
    · exact rejects_error rfl
    split
    · exact rejects_error rfl
    · exact rejects_ok _

end Rejects

/-! ## Whole buffers -/

section Decode

variable {buffer rest : List U8} {output : NetworkRequest}

theorem run_eq_ok_iff {request : NetworkRequest} :
    networkRequestDecoderRun buffer = .ok request ↔
      buffer ≠ [] ∧ Accepts networkRequestDecoderEmpty buffer request := by
  unfold networkRequestDecoderRun Accepts
  by_cases hempty : buffer = []
  · simp [hempty]
  rw [if_neg hempty]
  cases networkRequestDecoderRunBytes networkRequestDecoderEmpty buffer with
  | error error => simp
  | ok result =>
      obtain ⟨⟨request', argc, state⟩, rest⟩ := result
      simp only [ne_eq, hempty, not_false_eq_true, true_and]
      split
      next hargc => simp [hargc]
      next hargc =>
        split
        next hopen =>
          simp only [reduceCtorEq, Except.ok.injEq, Prod.mk.injEq, NetworkRequestDecoder.mk.injEq,
            false_iff]
          rintro ⟨⟨_, _, rfl⟩, rfl⟩
          exact hopen.elim (· rfl) (· rfl)
        next hclosed =>
          rw [not_or, not_not, not_not] at hclosed
          simp [not_not.mp hargc, hclosed]

/-- Decoding succeeds with the request that is accepted, and otherwise leaves the
output alone. -/
theorem decode_cases (buffer : List U8) (output : NetworkRequest) :
    (∃ request, networkRequestDecoderRun buffer = .ok request ∧
      networkRequestDecode buffer output = (.none, request)) ∨
    ∃ error, (∀ request, networkRequestDecoderRun buffer ≠ .ok request) ∧
      networkRequestDecode buffer output = (error, output) ∧ error ≠ .none := by
  cases hrun : networkRequestDecoderRun buffer with
  | ok request => exact .inl ⟨request, rfl, by rw [networkRequestDecode, hrun]⟩
  | error error =>
      refine .inr ⟨error, nofun, by rw [networkRequestDecode, hrun], ?_⟩
      rintro rfl
      nomatch rejects_run buffer _ hrun

/-- Whatever is wrong with a line, the request is rejected. -/
theorem decode_rejects (buffer : List U8) (output : NetworkRequest)
    (hexists : errorExists (networkRequestDecode buffer output).1) :
    (errorReport (networkRequestDecode buffer output).1).action = .reject := by
  cases hrun : networkRequestDecoderRun buffer with
  | ok request =>
      rw [networkRequestDecode, hrun] at hexists
      nomatch hexists
  | error error =>
      rw [networkRequestDecode, hrun]
      exact rejects_run buffer error hrun

theorem decode_eq_none_iff (buffer : List U8) (output : NetworkRequest) :
    (networkRequestDecode buffer output).1 = .none ↔
      ∃ request, networkRequestDecoderRun buffer = .ok request := by
  rcases decode_cases buffer output with ⟨request, hrun, hdecode⟩ | ⟨error, hno, hdecode, hexists⟩
  · simp [hrun, hdecode]
  · simp [hno, hdecode, hexists]

theorem decode_of_run {request : NetworkRequest}
    (hrun : networkRequestDecoderRun buffer = .ok request) :
    networkRequestDecode buffer output = (.none, request) := by
  rw [networkRequestDecode, hrun]

theorem accepts_command {command : U8} {decoder : NetworkRequestDecoder} {request : NetworkRequest}
    (hcommand : networkRequestDecoderRunCommand networkRequestDecoderEmpty command = .ok decoder) :
    networkRequestDecoderRun (command :: rest) = .ok request ↔ Accepts decoder rest request := by
  rw [run_eq_ok_iff, Accepts, networkRequestDecoderRunBytes]
  simp only [networkRequestDecoderEmpty] at hcommand ⊢
  rw [hcommand]
  simp [Accepts]

/-- A command with arguments is followed by a field that fits for each of them. -/
theorem run_fields_iff {command : U8} {widths : List Nat} {put : List Nat → NetworkRequest}
    (hshape : Shape command widths put) {request : NetworkRequest} :
    networkRequestDecoderRun (command :: rest) = .ok request ↔
      ∃ fields, rest = spaced fields ∧ List.Forall₂ FieldFits fields widths ∧
        request = put (fields.map fieldValue) := by
  rw [accepts_command hshape.started, hshape.slots.accepts_iff]

/-- A command without arguments is followed by a space. -/
theorem run_plain_iff {command : U8} {started : NetworkRequest}
    (hcommand : networkRequestDecoderRunCommand networkRequestDecoderEmpty command =
      .ok ⟨started, 0, .argument⟩) {request : NetworkRequest} :
    networkRequestDecoderRun (command :: rest) = .ok request ↔
      rest = [asciiSpace] ∧ request = started := by
  rw [accepts_command hcommand]
  constructor
  · intro haccepts
    cases rest with
    | nil => exact (not_accepts_nil haccepts).elim
    | cons byte rest =>
        by_cases hspace : byte = asciiSpace
        · subst hspace
          cases rest with
          | nil =>
              obtain ⟨rfl⟩ := haccepts
              exact ⟨rfl, rfl⟩
          | cons byte rest => nomatch haccepts
        · rw [Accepts, networkRequestDecoderRunBytes] at haccepts
          simp [networkRequestDecoderRunArgument, hspace] at haccepts
  · rintro ⟨rfl, rfl⟩
    rfl

theorem splitOn_eq_iff {fields : List (List U8)} (hfields : ∀ field ∈ fields, asciiSpace ∉ field) :
    rest.splitOn asciiSpace = fields ++ [[]] ↔ rest = spaced fields := by
  have hspaced : [asciiSpace].intercalate (fields ++ [[]]) = spaced fields := by
    induction fields with
    | nil => rfl
    | cons field fields ih =>
        have hrest := ih fun field hmem => hfields field (List.mem_cons_of_mem _ hmem)
        rw [spaced, List.flatMap_cons, ← spaced, ← hrest]
        cases fields <;> simp [List.intercalate_cons_cons]
  constructor
  · intro hsplit
    rw [← hspaced, ← hsplit, List.intercalate_splitOn]
  · rintro rfl
    rw [← hspaced, List.splitOn_intercalate _ ?_ (by simp)]
    intro field hmem
    rcases List.mem_append.mp hmem with hmem | hmem
    · exact hfields field hmem
    · rw [List.mem_singleton.mp hmem]
      exact List.not_mem_nil

theorem space_notMem_of_fits {fields : List (List U8)} {widths : List Nat}
    (hfits : List.Forall₂ FieldFits fields widths) : ∀ field ∈ fields, asciiSpace ∉ field := by
  induction hfits with
  | nil => simp
  | cons hfits _ ih => exact List.forall_mem_cons.mpr ⟨hfits.1.space_notMem, ih⟩

theorem values_of_fits {fields : List (List U8)} {widths : List Nat}
    (hfits : List.Forall₂ FieldFits fields widths) :
    List.Forall₂ (fun value bits => value < 2 ^ bits) (fields.map fieldValue) widths := by
  induction hfits with
  | nil => exact .nil
  | cons hfits _ ih => exact .cons hfits.2 ih

end Decode

/-- The lines that are decoded, by the command, and the requests they become. The
fields are the pieces between single spaces, before the last of them. -/
structure Understood (buffer : List U8) (output : NetworkRequest)
    (decoded : Error × NetworkRequest) : Prop where
  unchanged : decoded.1 ≠ .none → decoded.2 = output
  empty : buffer = [] → decoded.1 ≠ .none
  unknown : ∀ command rest, buffer = command :: rest → argumentWidths command = none →
    decoded.1 ≠ .none
  plain : ∀ command rest, buffer = command :: rest → argumentWidths command = some [] →
    (decoded.1 = .none ↔ rest = [asciiSpace]) ∧
    (decoded.1 = .none → decoded.2.command = command ∧ decoded.2.values = [])
  fields : ∀ command rest width widths, buffer = command :: rest →
    argumentWidths command = some (width :: widths) →
    (decoded.1 = .none ↔ ∃ fields, rest.splitOn asciiSpace = fields ++ [[]] ∧
      List.Forall₂ FieldFits fields (width :: widths)) ∧
    (decoded.1 = .none → decoded.2.command = command ∧
      decoded.2.values = (rest.splitOn asciiSpace).dropLast.map fieldValue)

/-- The decoder accepts exactly the lines of the language, with their values. -/
theorem networkRequestDecode_understood (buffer : List U8) (output : NetworkRequest) :
    Understood buffer output (networkRequestDecode buffer output) where
  unchanged hexists := by
    rcases decode_cases buffer output with ⟨_, _, hdecode⟩ | ⟨_, _, hdecode, _⟩
    · exact (hexists (by rw [hdecode])).elim
    · rw [hdecode]
  empty := by
    rintro rfl
    intro hexists
    cases hexists
  -- A command byte outside of the language fails at once, whatever follows it.
  unknown command rest hbuffer hunknown := by
    rw [ne_eq, decode_eq_none_iff, hbuffer]
    rintro ⟨request, hrun⟩
    obtain ⟨_, haccepts⟩ := run_eq_ok_iff.mp hrun
    rw [Accepts, networkRequestDecoderRunBytes] at haccepts
    have hcommand := runCommand_unknown hunknown
    simp only [networkRequestDecoderEmpty] at haccepts hcommand
    rw [hcommand] at haccepts
    cases haccepts
  plain command rest hbuffer hplain := by
    obtain ⟨started, hcommand, hvalues, hstarted⟩ := runCommand_plain hplain
    subst hbuffer
    constructor
    · rw [decode_eq_none_iff]
      simp [run_plain_iff hstarted]
    · rw [decode_eq_none_iff]
      rintro ⟨request, hrun⟩
      obtain ⟨_, rfl⟩ := (run_plain_iff hstarted).mp hrun
      rw [decode_of_run hrun]
      exact ⟨hcommand, hvalues⟩
  fields command rest width widths hbuffer hwidths := by
    obtain ⟨put, hshape⟩ := exists_shape hwidths
    subst hbuffer
    constructor
    · rw [decode_eq_none_iff]
      constructor
      · rintro ⟨request, hrun⟩
        obtain ⟨fields, hrest, hfits, _⟩ := (run_fields_iff hshape).mp hrun
        exact ⟨fields, (splitOn_eq_iff (space_notMem_of_fits hfits)).mpr hrest, hfits⟩
      · rintro ⟨fields, hsplit, hfits⟩
        have hrest := (splitOn_eq_iff (space_notMem_of_fits hfits)).mp hsplit
        exact ⟨_, (run_fields_iff hshape).mpr ⟨fields, hrest, hfits, rfl⟩⟩
    · rw [decode_eq_none_iff]
      rintro ⟨request, hrun⟩
      obtain ⟨fields, hrest, hfits, rfl⟩ := (run_fields_iff hshape).mp hrun
      rw [decode_of_run hrun, (splitOn_eq_iff (space_notMem_of_fits hfits)).mpr hrest,
        List.dropLast_concat]
      exact ⟨hshape.command_eq _, hshape.values_eq _ (values_of_fits hfits)⟩

/-! ## Arguments that are missing -/

/-- The piece with this index stands in the line and has a digit. -/
def Present (rest : List U8) (index : Nat) : Prop :=
  ∃ field, (rest.splitOn asciiSpace)[index]? = some field ∧ ∃ byte ∈ field, isDigit byte

/-- No argument is missing: what is accepted has a digit in every argument that the
command requires, and a line that has not is turned away. -/
structure NoArgumentMissing (buffer : List U8) (output : NetworkRequest) : Prop where
  complete : ∀ command rest widths, buffer = command :: rest →
    argumentWidths command = some widths → (networkRequestDecode buffer output).1 = .none →
    ∀ index < widths.length, Present rest index
  rejected : ∀ command rest widths, buffer = command :: rest →
    argumentWidths command = some widths → (∃ index < widths.length, ¬Present rest index) →
    (networkRequestDecode buffer output).1 ≠ .none ∧
      (networkRequestDecode buffer output).2 = output

/-- A command with as many fields as it requires, all of them fit, one of them
without a digit. -/
def HasHole (buffer : List U8) : Prop :=
  ∃ command fields widths, buffer = command :: spaced fields ∧
    argumentWidths command = some widths ∧ List.Forall₂ FieldFits fields widths ∧
    ∃ field ∈ fields, ∀ byte ∈ field, byte = asciiUnderscore

theorem Numeral.forall_underscore_iff {field : List U8} (hnumeral : Numeral field) :
    (∀ byte ∈ field, byte = asciiUnderscore) ↔ ¬∃ byte ∈ field, isDigit byte := by
  constructor
  · rintro hunderscores ⟨byte, hmem, hdigit⟩
    rw [hunderscores byte hmem] at hdigit
    nomatch hdigit
  · intro hnone byte hmem
    exact (hnumeral byte hmem).resolve_left fun hdigit => hnone ⟨byte, hmem, hdigit⟩

theorem numeral_of_fits {fields : List (List U8)} {widths : List Nat}
    (hfits : List.Forall₂ FieldFits fields widths) : ∀ field ∈ fields, Numeral field := by
  induction hfits with
  | nil => simp
  | cons hfits _ ih => exact List.forall_mem_cons.mpr ⟨hfits.1, ih⟩

/-- The pieces of fields with a space behind each are these fields, in order. -/
theorem present_spaced_iff {fields : List (List U8)} {widths : List Nat}
    (hfits : List.Forall₂ FieldFits fields widths) {index : Nat} (hindex : index < fields.length) :
    Present (spaced fields) index ↔ ∃ byte ∈ fields[index], isDigit byte := by
  have hsplit := (splitOn_eq_iff (space_notMem_of_fits hfits)).mpr rfl
  unfold Present
  rw [hsplit, List.getElem?_append_left hindex, List.getElem?_eq_getElem hindex]
  simp

/-- What is accepted for a command is a field that fits for every argument. -/
theorem exists_fields {command : U8} {rest : List U8} {widths : List Nat} {output : NetworkRequest}
    (hwidths : argumentWidths command = some widths)
    (haccepted : (networkRequestDecode (command :: rest) output).1 = .none)
    (hnonempty : widths ≠ []) :
    ∃ fields, rest = spaced fields ∧ List.Forall₂ FieldFits fields widths := by
  cases widths with
  | nil => exact (hnonempty rfl).elim
  | cons width widths =>
      obtain ⟨put, hshape⟩ := exists_shape hwidths
      obtain ⟨request, hrun⟩ := (decode_eq_none_iff _ _).mp haccepted
      obtain ⟨fields, hrest, hfits, _⟩ := (run_fields_iff hshape).mp hrun
      exact ⟨fields, hrest, hfits⟩

theorem accepted_of_fits {command : U8} {fields : List (List U8)} {width : Nat} {widths : List Nat}
    (output : NetworkRequest) (hwidths : argumentWidths command = some (width :: widths))
    (hfits : List.Forall₂ FieldFits fields (width :: widths)) :
    (networkRequestDecode (command :: spaced fields) output).1 = .none := by
  obtain ⟨put, hshape⟩ := exists_shape hwidths
  rw [decode_of_run ((run_fields_iff hshape).mpr ⟨fields, rfl, hfits, rfl⟩)]

/-- Without a hole an accepted line has all its arguments. -/
theorem present_of_accepted {command : U8} {rest : List U8} {widths : List Nat}
    {output : NetworkRequest} (hno : ¬HasHole (command :: rest))
    (hwidths : argumentWidths command = some widths)
    (haccepted : (networkRequestDecode (command :: rest) output).1 = .none) {index : Nat}
    (hindex : index < widths.length) : Present rest index := by
  have hnonempty : widths ≠ [] := List.ne_nil_of_length_pos (Nat.zero_lt_of_lt hindex)
  obtain ⟨fields, rfl, hfits⟩ := exists_fields hwidths haccepted hnonempty
  have hlength := hfits.length_eq
  rw [present_spaced_iff hfits (by omega)]
  by_contra hdigit
  have hmem : fields[index] ∈ fields := List.getElem_mem _
  have hunderscores := (numeral_of_fits hfits _ hmem).forall_underscore_iff.mpr hdigit
  exact hno ⟨command, fields, widths, rfl, hwidths, hfits, _, hmem, hunderscores⟩

/-- No argument is missing exactly in the lines without a hole. -/
theorem noArgumentMissing_iff (buffer : List U8) (output : NetworkRequest) :
    NoArgumentMissing buffer output ↔ ¬HasHole buffer := by
  constructor
  · rintro hmissing ⟨command, fields, widths, rfl, hwidths, hfits, field, hmem, hunderscores⟩
    obtain ⟨index, hindex, rfl⟩ := List.getElem_of_mem hmem
    have hlength := hfits.length_eq
    cases widths with
    | nil => exact absurd hindex (by simp [hlength])
    | cons width widths =>
        have haccepted := accepted_of_fits output hwidths hfits
        have hpresent := hmissing.complete command _ _ rfl hwidths haccepted index (by omega)
        rw [present_spaced_iff hfits hindex] at hpresent
        exact (numeral_of_fits hfits _ hmem).forall_underscore_iff.mp hunderscores hpresent
  · intro hno
    constructor
    · rintro command rest widths rfl hwidths haccepted index hindex
      exact present_of_accepted hno hwidths haccepted hindex
    · rintro command rest widths rfl hwidths ⟨index, hindex, habsent⟩
      rcases decode_cases (command :: rest) output with
        ⟨request, hrun, hdecode⟩ | ⟨error, _, hdecode, hexists⟩
      · have haccepted := (decode_eq_none_iff _ output).mpr ⟨request, hrun⟩
        exact (habsent (present_of_accepted hno hwidths haccepted hindex)).elim
      · rw [hdecode]
        exact ⟨hexists, rfl⟩

/-- With two spaces behind its number an update is one of account zero. -/
theorem not_noArgumentMissing_doubled_space :
    ¬NoArgumentMissing ([0x3D, 0x31, 0x20, 0x20, 0x33, 0x20]) networkRequestEmpty := by
  intro hmissing
  have hdecoded : networkRequestDecode ([0x3D, 0x31, 0x20, 0x20, 0x33, 0x20])
      networkRequestEmpty = (.none, .updateAccount 1 0 3) := by decide
  obtain ⟨field, hfield, byte, hmem, _⟩ := hmissing.complete 0x3D _ [64, 64, 8] rfl (by decide)
    (by rw [hdecoded]) 1 (by decide)
  obtain rfl : [] = field := Option.some.inj hfield
  nomatch hmem

end LetDX.LetDB
