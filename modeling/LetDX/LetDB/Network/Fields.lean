import LetDX.Bytes.Numerals
import LetDX.LetDB.Network.Decoding

/-! # Fields of a line

An argument takes a field of digits and underscores, digit by digit, as long as
its value stays in range. A command takes one field for each argument, with a
space behind it.
-/

namespace LetDX.LetDB

open Bytes

/-- The widths in bits of the arguments of a command. -/
def argumentWidths (command : U8) : Option (List Nat) :=
  if command = 0x3B ∨ command = 0x23 ∨ command = 0x2E then some []
  else if command = 0x2B then some [64, 128, 128, 8]
  else if command = 0x25 then some [64, 64, 64, 128]
  else if command = 0x3D then some [64, 64, 8]
  else if command = 0x3F then some [64]
  else none

def isDigit (byte : U8) : Bool :=
  0x30 ≤ byte ∧ byte ≤ 0x39

/-- Digits and underscores only. -/
def Numeral (field : List U8) : Prop :=
  ∀ byte ∈ field, isDigit byte ∨ byte = asciiUnderscore

/-- The numbers of the digits of a field, without its underscores. -/
def fieldFigures (field : List U8) : List Nat :=
  (field.filter (· ≠ asciiUnderscore)).map fun byte => byte.toNat - 0x30

/-- The decimal value of a field. -/
def fieldValue (field : List U8) : Nat :=
  Nat.ofDigits 10 (fieldFigures field).reverse

/-- A field that can be an argument of this width. -/
def FieldFits (field : List U8) (bits : Nat) : Prop :=
  Numeral field ∧ fieldValue field < 2 ^ bits

namespace NetworkRequest

def command : NetworkRequest → U8
  | magic => 0x3B
  | addAccount .. => 0x2B
  | makeTransfer .. => 0x25
  | getAccount _ => 0x3F
  | countDatabase => 0x23
  | updateAccount .. => 0x3D
  | close => 0x2E

/-- The arguments, in the order of the line. -/
def values : NetworkRequest → List Nat
  | magic | countDatabase | close => []
  | addAccount walId credits debits flags =>
      [walId.toNat, credits.toNat, debits.toNat, flags.toNat]
  | makeTransfer walId fromId toId amount =>
      [walId.toNat, fromId.toNat, toId.toNat, amount.toNat]
  | getAccount accountId => [accountId.toNat]
  | updateAccount walId accountId flags => [walId.toNat, accountId.toNat, flags.toNat]

end NetworkRequest

/-! ## Figures -/

theorem isDigit_iff {byte : U8} : isDigit byte = true ↔ ∃ figure < 10, byte = digit figure := by
  constructor
  · intro hdigit
    have hbytes : ∀ number < 256, isDigit (BitVec.ofNat 8 number) = true →
        BitVec.ofNat 8 number = digit (number - 0x30) ∧ number - 0x30 < 10 := by
      decide +kernel
    have hbyte := hbytes byte.toNat byte.isLt
    rw [BitVec.ofNat_toNat, BitVec.setWidth_eq] at hbyte
    obtain ⟨heq, hless⟩ := hbyte hdigit
    exact ⟨_, hless, heq⟩
  · rintro ⟨figure, hfigure, rfl⟩
    obtain ⟨hlow, hhigh, _⟩ := digit_bounds figure hfigure
    exact decide_eq_true ⟨hlow, hhigh⟩

theorem fieldFigures_digit {figure : Nat} (hfigure : figure < 10) (field : List U8) :
    fieldFigures (digit figure :: field) = figure :: fieldFigures field := by
  have hfigures : ∀ figure < 10, digit figure ≠ asciiUnderscore ∧
      (digit figure).toNat - 0x30 = figure := by decide
  obtain ⟨hunderscore, hvalue⟩ := hfigures figure hfigure
  rw [fieldFigures, List.filter_cons_of_pos (by simpa using hunderscore), List.map_cons, hvalue]
  rfl

theorem fieldFigures_underscore (field : List U8) :
    fieldFigures (asciiUnderscore :: field) = fieldFigures field := by
  rw [fieldFigures, List.filter_cons_of_neg (by simp)]
  rfl

theorem fieldValue_eq (field : List U8) : fieldValue field = readFrom 10 0 (fieldFigures field) :=
  readFrom_zero.symm

theorem Numeral.space_notMem {field : List U8} (hnumeral : Numeral field) :
    asciiSpace ∉ field := by
  intro hmem
  rcases hnumeral _ hmem with hdigit | hunderscore
  · nomatch hdigit
  · nomatch hunderscore

theorem numeral_cons_iff {byte : U8} {field : List U8} :
    Numeral (byte :: field) ↔ (isDigit byte ∨ byte = asciiUnderscore) ∧ Numeral field := by
  simp [Numeral]

/-! ## One byte of an integer -/

/-- A digit whose addition leaves the range is an error. -/
theorem parseU128_overflow {argc figure : Nat} {output : U128} (hfigure : figure < 10)
    (hlarge : 2 ^ 128 ≤ output.toNat * 10 + figure) :
    networkRequestDecoderParseU128 argc (digit figure) output =
      .error (.network .requestIntegerOverflow) := by
  obtain ⟨hlow, hhigh, _, hvalue⟩ := digit_bounds figure hfigure
  have hdigit : ((digit figure - 0x30).setWidth 128).toNat = figure := by
    rw [BitVec.toNat_setWidth, hvalue]
    exact Nat.mod_eq_of_lt (hfigure.trans (by decide))
  unfold networkRequestDecoderParseU128
  dsimp only
  rw [if_pos ⟨hlow, hhigh⟩]
  split
  next => rfl
  next hroom =>
    have hten : (10 : U128).toNat = 10 := rfl
    have hbelow : output.toNat * 10 ≤ 2 ^ 128 - 1 := by
      rw [gt_iff_lt, BitVec.not_lt, BitVec.le_def, BitVec.toNat_udiv, BitVec.toNat_allOnes,
        hten] at hroom
      omega
    have hshifted : (output * 10).toNat = output.toNat * 10 := by
      rw [BitVec.toNat_mul_of_lt, hten]
      rw [hten]
      omega
    have hle : output * 10 ≤ BitVec.allOnes 128 := by
      rwa [BitVec.le_def, hshifted, BitVec.toNat_allOnes]
    rw [if_pos]
    rw [gt_iff_lt, BitVec.lt_def, hdigit, BitVec.toNat_sub_of_le hle, BitVec.toNat_allOnes,
      hshifted]
    omega

section Narrow

variable {bits argc : Nat} {output : BitVec bits}

theorem parseNarrow_overflow (hbits : bits ≤ 128) {figure : Nat} (hfigure : figure < 10)
    (hlarge : 2 ^ bits ≤ output.toNat * 10 + figure) :
    networkRequestDecoderParseNarrow bits argc (digit figure) output =
      .error (.network .requestIntegerOverflow) := by
  have houtput : (output.setWidth 128).toNat = output.toNat := BitVec.toNat_setWidth_of_le hbits
  unfold networkRequestDecoderParseNarrow
  by_cases hfits : output.toNat * 10 + figure < 2 ^ 128
  · rw [parseU128_digit hfigure (by rwa [houtput]), houtput]
    dsimp only
    rw [if_pos]
    rw [gt_iff_lt, BitVec.lt_def, BitVec.toNat_setWidth_of_le hbits, BitVec.toNat_allOnes,
      BitVec.toNat_ofNat, Nat.mod_eq_of_lt hfits]
    exact (Nat.sub_one_lt (Nat.pow_pos (by decide)).ne').trans_le hlarge
  · rw [parseU128_overflow hfigure (by rw [houtput]; exact Nat.not_lt.mp hfits)]

theorem parseNarrow_underscore (hbits : bits ≤ 128) :
    networkRequestDecoderParseNarrow bits argc asciiUnderscore output = .ok (argc, output) :=
  parseNarrow_of_parseU128 hbits rfl

theorem parseNarrow_invalid {byte : U8} (output : BitVec bits) (hdigit : ¬isDigit byte)
    (hspace : byte ≠ asciiSpace)
    (hunderscore : byte ≠ asciiUnderscore) :
    networkRequestDecoderParseNarrow bits argc byte output =
      .error (.network .requestInvalidInteger) := by
  have hno : ¬(0x30 ≤ byte ∧ byte ≤ 0x39) := by simpa [isDigit] using hdigit
  unfold networkRequestDecoderParseNarrow networkRequestDecoderParseU128
  rw [if_neg hno, if_neg hspace, if_pos hunderscore]

end Narrow

/-! ## One field -/

/-- The decoder ends at the end of these bytes and accepts the request. -/
def Accepts (decoder : NetworkRequestDecoder) (bytes : List U8) (request : NetworkRequest) : Prop :=
  networkRequestDecoderRunBytes decoder bytes = .ok (⟨request, 0, .end⟩, [])

namespace Slot

variable {bits argc : Nat} {put : BitVec bits → NetworkRequest} {value : BitVec bits}
  {field tail : List U8} {request : NetworkRequest}

/-- Any byte but a space goes to the parser of the argument that is due. -/
theorem run_byte (hslot : Slot bits argc put) {byte : U8} (hspace : byte ≠ asciiSpace) :
    networkRequestDecoderRunBytes ⟨put value, argc, .argument⟩ (byte :: tail) =
      match networkRequestDecoderParseNarrow bits argc byte value with
      | .error error => .error error
      | .ok (argc, value) =>
          networkRequestDecoderRunBytes ⟨put value, argc, .argument⟩ tail := by
  have hargument : networkRequestDecoderRunArgument ⟨put value, argc, .argument⟩ byte =
      (networkRequestDecoderParseNarrow bits argc byte value).map fun parsed =>
        ⟨put parsed.2, parsed.1, .argument⟩ := by
    unfold networkRequestDecoderRunArgument
    dsimp only
    rw [if_neg (Nat.ne_of_gt hslot.due), if_neg (fun h => hspace h.2), hslot.stores]
  rw [networkRequestDecoderRunBytes]
  dsimp only
  rw [hargument]
  cases networkRequestDecoderParseNarrow bits argc byte value <;> rfl

theorem not_accepts_error (hslot : Slot bits argc put) {byte : U8} {error : Error}
    (tail : List U8) (request : NetworkRequest) (hspace : byte ≠ asciiSpace)
    (herror : networkRequestDecoderParseNarrow bits argc byte value = .error error) :
    ¬Accepts ⟨put value, argc, .argument⟩ (byte :: tail) request := by
  rw [Accepts, hslot.run_byte hspace, herror]
  exact nofun

/-- What has been read of an argument is the number of the digits so far, and it
must stay in range up to the last of them. -/
theorem accepts_field (hslot : Slot bits argc put) (hspace : asciiSpace ∉ field) :
    Accepts ⟨put value, argc, .argument⟩ (field ++ tail) request ↔
      Numeral field ∧ readFrom 10 value.toNat (fieldFigures field) < 2 ^ bits ∧
        Accepts ⟨put (BitVec.ofNat bits (readFrom 10 value.toNat (fieldFigures field))), argc,
          .argument⟩ tail request := by
  induction field generalizing value with
  | nil =>
      have hvalue := value.isLt
      simp [Numeral, fieldFigures, hvalue]
  | cons byte field ih =>
      rw [List.mem_cons, not_or] at hspace
      obtain ⟨hbyte, hspace⟩ := hspace
      rw [List.cons_append, numeral_cons_iff]
      by_cases hdigit : isDigit byte
      · obtain ⟨figure, hfigure, rfl⟩ := isDigit_iff.mp hdigit
        rw [fieldFigures_digit hfigure, readFrom_cons]
        by_cases hfits : value.toNat * 10 + figure < 2 ^ bits
        · have hvalue : (BitVec.ofNat bits (value.toNat * 10 + figure)).toNat =
              value.toNat * 10 + figure := by
            rw [BitVec.toNat_ofNat, Nat.mod_eq_of_lt hfits]
          rw [Accepts, hslot.run_digit hfigure hfits, ← Accepts, ih hspace, hvalue]
          simp [hdigit]
        · -- a number out of range stays out of range with any further digits
          have hlarge : ¬readFrom 10 (value.toNat * 10 + figure) (fieldFigures field) < 2 ^ bits :=
            fun hless => hfits ((le_readFrom (by decide)).trans_lt hless)
          have hrejected := hslot.not_accepts_error (field ++ tail) request
            (Ne.symm hbyte) (parseNarrow_overflow hslot.narrow hfigure (Nat.not_lt.mp hfits))
          simp [hlarge, hrejected]
      by_cases hunderscore : byte = asciiUnderscore
      · subst hunderscore
        rw [Accepts, hslot.run_byte (Ne.symm hbyte), parseNarrow_underscore hslot.narrow,
          ← Accepts, ih hspace, fieldFigures_underscore]
        simp
      · have hrejected := hslot.not_accepts_error (field ++ tail) request (Ne.symm hbyte)
          (parseNarrow_invalid value hdigit (Ne.symm hbyte) hunderscore)
        simp [hdigit, hunderscore, hrejected]

end Slot

theorem not_accepts_nil {partly request : NetworkRequest} {argc : Nat} :
    ¬Accepts ⟨partly, argc, .argument⟩ [] request := nofun

/-- Bytes without a space are one piece, and others have a piece in front of a space. -/
theorem exists_piece (bytes : List U8) : asciiSpace ∉ bytes ∨
    ∃ field tail, asciiSpace ∉ field ∧ bytes = field ++ asciiSpace :: tail := by
  induction bytes with
  | nil => exact .inl List.not_mem_nil
  | cons byte bytes ih =>
      by_cases hspace : byte = asciiSpace
      · exact .inr ⟨[], bytes, List.not_mem_nil, by rw [hspace]; rfl⟩
      · rcases ih with hnone | ⟨field, tail, hfield, rfl⟩
        · exact .inl (by simp [Ne.symm hspace, hnone])
        · exact .inr ⟨byte :: field, tail, by simp [Ne.symm hspace, hfield], rfl⟩

/-- The argument that is due takes a field that fits, up to a space. -/
theorem Slot.accepts_iff {bits argc : Nat} {put : BitVec bits → NetworkRequest}
    (hslot : Slot bits argc put) (bytes : List U8) (request : NetworkRequest) :
    Accepts ⟨put 0, argc, .argument⟩ bytes request ↔
      ∃ field tail, bytes = field ++ asciiSpace :: tail ∧ FieldFits field bits ∧
        Accepts ⟨put (BitVec.ofNat bits (fieldValue field)), argc, .argument⟩
          (asciiSpace :: tail) request := by
  have hzero : (0 : BitVec bits).toNat = 0 := by simp
  constructor
  · intro haccepts
    rcases exists_piece bytes with hnone | ⟨field, tail, hfield, rfl⟩
    · rw [← List.append_nil bytes, hslot.accepts_field hnone] at haccepts
      exact (not_accepts_nil haccepts.2.2).elim
    · rw [hslot.accepts_field hfield, hzero, ← fieldValue_eq] at haccepts
      obtain ⟨hnumeral, hvalue, haccepts⟩ := haccepts
      exact ⟨field, tail, rfl, ⟨hnumeral, hvalue⟩, haccepts⟩
  · rintro ⟨field, tail, rfl, ⟨hnumeral, hvalue⟩, haccepts⟩
    rw [hslot.accepts_field hnumeral.space_notMem, hzero, ← fieldValue_eq]
    exact ⟨hnumeral, hvalue, haccepts⟩

/-! ## All fields -/

/-- The arguments of these widths are due one after the other, the request that
has their values so far being given by `put`. -/
inductive Slots : List Nat → (List Nat → NetworkRequest) → Prop
  | last {bits : Nat} {put : List Nat → NetworkRequest}
      (hslot : Slot bits 1 fun value => put [value.toNat]) : Slots [bits] put
  | next {bits width : Nat} {widths : List Nat} {put : List Nat → NetworkRequest}
      (hslot : Slot bits (widths.length + 2) fun value =>
        put (value.toNat :: (width :: widths).map fun _ => 0))
      (hslots : ∀ value : BitVec bits,
        Slots (width :: widths) fun values => put (value.toNat :: values)) :
      Slots (bits :: width :: widths) put

/-- The fields of a line, each with a space behind it. -/
def spaced (fields : List (List U8)) : List U8 :=
  fields.flatMap (· ++ [asciiSpace])

/-- The line has exactly one field for each argument, and every field fits. -/
theorem Slots.accepts_iff {widths : List Nat} {put : List Nat → NetworkRequest}
    (hslots : Slots widths put) (bytes : List U8) (request : NetworkRequest) :
    Accepts ⟨put (widths.map fun _ => 0), widths.length, .argument⟩ bytes request ↔
      ∃ fields, bytes = spaced fields ∧ List.Forall₂ FieldFits fields widths ∧
        request = put (fields.map fieldValue) := by
  have hvalue {field : List U8} {bits : Nat} (hfits : FieldFits field bits) :
      (BitVec.ofNat bits (fieldValue field)).toNat = fieldValue field := by
    rw [BitVec.toNat_ofNat, Nat.mod_eq_of_lt hfits.2]
  -- By the number of fields: a field fills its slot, and the rest fill theirs.
  induction hslots generalizing bytes with
  | @last bits put hslot =>
      have hzero : (0 : BitVec bits).toNat = 0 := by simp
      have hstart := hslot.accepts_iff bytes request
      rw [hzero] at hstart
      apply hstart.trans
      constructor
      · rintro ⟨field, tail, rfl, hfits, haccepts⟩
        rw [hvalue hfits] at haccepts
        cases tail with
        | nil =>
            obtain ⟨rfl⟩ := haccepts
            exact ⟨[field], by simp [spaced], .cons hfits .nil, rfl⟩
        | cons byte tail => nomatch haccepts
      · rintro ⟨fields, rfl, hfits, rfl⟩
        cases hfits with
        | cons hfits hrest =>
            cases hrest
            exact ⟨_, [], by simp [spaced], hfits, by rw [hvalue hfits]; rfl⟩
  | @next bits width widths put hslot hslots ih =>
      have hzero : (0 : BitVec bits).toNat = 0 := by simp
      have hstart := hslot.accepts_iff bytes request
      rw [hzero] at hstart
      have hspace (value : BitVec bits) (tail : List U8) :
          Accepts ⟨put (value.toNat :: (width :: widths).map fun _ => 0), widths.length + 2,
            .argument⟩ (asciiSpace :: tail) request ↔
          ∃ fields, tail = spaced fields ∧ List.Forall₂ FieldFits fields (width :: widths) ∧
            request = put (value.toNat :: fields.map fieldValue) := by
        have hrun : networkRequestDecoderRunBytes ⟨put (value.toNat :: (width :: widths).map
            fun _ => 0), widths.length + 2, .argument⟩ (asciiSpace :: tail) =
            networkRequestDecoderRunBytes ⟨put (value.toNat :: (width :: widths).map fun _ => 0),
              widths.length + 1, .argument⟩ tail := hslot.run_space (by omega)
        rw [Accepts, hrun]
        exact ih value tail
      apply hstart.trans
      constructor
      · rintro ⟨field, tail, rfl, hfits, haccepts⟩
        obtain ⟨fields, rfl, hrest, rfl⟩ := (hspace _ tail).mp haccepts
        exact ⟨field :: fields, by simp [spaced], .cons hfits hrest, by rw [hvalue hfits]; rfl⟩
      · rintro ⟨fields, rfl, hfits, rfl⟩
        cases hfits with
        | @cons field _ fields _ hfits hrest =>
            refine ⟨field, spaced fields, by simp [spaced], hfits, ?_⟩
            apply (hspace _ _).mpr
            exact ⟨fields, rfl, hrest, by rw [hvalue hfits]; rfl⟩

/-! ## Commands -/

/-- A command starts its request without arguments, and they are due in order. -/
structure Shape (command : U8) (widths : List Nat) (put : List Nat → NetworkRequest) : Prop where
  started : networkRequestDecoderRunCommand networkRequestDecoderEmpty command =
    .ok ⟨put (widths.map fun _ => 0), widths.length, .argument⟩
  slots : Slots widths put
  command_eq : ∀ values, (put values).command = command
  values_eq : ∀ values, List.Forall₂ (fun value bits => value < 2 ^ bits) values widths →
    (put values).values = values

theorem toNat_ofNat {bits value : Nat} (hvalue : value < 2 ^ bits) :
    (BitVec.ofNat bits value).toNat = value := by
  rw [BitVec.toNat_ofNat, Nat.mod_eq_of_lt hvalue]

theorem shape_getAccount :
    Shape 0x3F [64] fun values => .getAccount (BitVec.ofNat 64 (values.getD 0 0)) where
  started := rfl
  slots := by
    have hslot : Slot 64 1 .getAccount := ⟨by decide, by decide, fun _ _ => rfl⟩
    apply Slots.last
    simpa using hslot
  command_eq _ := rfl
  values_eq values hvalues := by
    cases hvalues with
    | cons hvalue hrest =>
        cases hrest
        simp [NetworkRequest.values, toNat_ofNat hvalue]

theorem shape_updateAccount :
    Shape 0x3D [64, 64, 8] fun values => .updateAccount (BitVec.ofNat 64 (values.getD 0 0))
      (BitVec.ofNat 64 (values.getD 1 0)) (BitVec.ofNat 8 (values.getD 2 0)) where
  started := rfl
  slots := by
    have hwalId : Slot 64 3 (.updateAccount · 0 0) := ⟨by decide, by decide, fun _ _ => rfl⟩
    have haccountId (walId : U64) : Slot 64 2 (.updateAccount walId · 0) :=
      ⟨by decide, by decide, fun _ _ => rfl⟩
    have hflags (walId accountId : U64) : Slot 8 1 (.updateAccount walId accountId ·) :=
      ⟨by decide, by decide, fun _ _ => rfl⟩
    refine .next (by simpa using hwalId) fun walId => ?_
    refine .next (by simpa using haccountId walId) fun accountId => ?_
    exact .last (by simpa using hflags walId accountId)
  command_eq _ := rfl
  values_eq values hvalues := by
    obtain _ | ⟨hwalId, _ | ⟨haccountId, _ | ⟨hflags, ⟨⟩⟩⟩⟩ := hvalues
    simp [NetworkRequest.values, toNat_ofNat hwalId, toNat_ofNat haccountId, toNat_ofNat hflags]

theorem shape_addAccount :
    Shape 0x2B [64, 128, 128, 8] fun values => .addAccount (BitVec.ofNat 64 (values.getD 0 0))
      (BitVec.ofNat 128 (values.getD 1 0)) (BitVec.ofNat 128 (values.getD 2 0))
      (BitVec.ofNat 8 (values.getD 3 0)) where
  started := rfl
  slots := by
    have hwalId : Slot 64 4 (.addAccount · 0 0 0) := ⟨by decide, by decide, fun _ _ => rfl⟩
    have hcredits (walId : U64) : Slot 128 3 (.addAccount walId · 0 0) :=
      stores_u128 (fun _ _ => rfl) (by decide)
    have hdebits (walId : U64) (credits : U128) : Slot 128 2 (.addAccount walId credits · 0) :=
      stores_u128 (fun _ _ => rfl) (by decide)
    have hflags (walId : U64) (credits debits : U128) :
        Slot 8 1 (.addAccount walId credits debits ·) := ⟨by decide, by decide, fun _ _ => rfl⟩
    refine .next (by simpa using hwalId) fun walId => ?_
    refine .next (by simpa using hcredits walId) fun credits => ?_
    refine .next (by simpa using hdebits walId credits) fun debits => ?_
    exact .last (by simpa using hflags walId credits debits)
  command_eq _ := rfl
  values_eq values hvalues := by
    obtain _ | ⟨hwalId, _ | ⟨hcredits, _ | ⟨hdebits, _ | ⟨hflags, ⟨⟩⟩⟩⟩⟩ := hvalues
    simp [NetworkRequest.values, toNat_ofNat hwalId, toNat_ofNat hcredits, toNat_ofNat hdebits,
      toNat_ofNat hflags]

theorem shape_makeTransfer :
    Shape 0x25 [64, 64, 64, 128] fun values => .makeTransfer (BitVec.ofNat 64 (values.getD 0 0))
      (BitVec.ofNat 64 (values.getD 1 0)) (BitVec.ofNat 64 (values.getD 2 0))
      (BitVec.ofNat 128 (values.getD 3 0)) where
  started := rfl
  slots := by
    have hwalId : Slot 64 4 (.makeTransfer · 0 0 0) := ⟨by decide, by decide, fun _ _ => rfl⟩
    have hfromId (walId : U64) : Slot 64 3 (.makeTransfer walId · 0 0) :=
      ⟨by decide, by decide, fun _ _ => rfl⟩
    have htoId (walId fromId : U64) : Slot 64 2 (.makeTransfer walId fromId · 0) :=
      ⟨by decide, by decide, fun _ _ => rfl⟩
    have hamount (walId fromId toId : U64) : Slot 128 1 (.makeTransfer walId fromId toId ·) :=
      stores_u128 (fun _ _ => rfl) (by decide)
    refine .next (by simpa using hwalId) fun walId => ?_
    refine .next (by simpa using hfromId walId) fun fromId => ?_
    refine .next (by simpa using htoId walId fromId) fun toId => ?_
    exact .last (by simpa using hamount walId fromId toId)
  command_eq _ := rfl
  values_eq values hvalues := by
    obtain _ | ⟨hwalId, _ | ⟨hfromId, _ | ⟨htoId, _ | ⟨hamount, ⟨⟩⟩⟩⟩⟩ := hvalues
    simp [NetworkRequest.values, toNat_ofNat hwalId, toNat_ofNat hfromId, toNat_ofNat htoId,
      toNat_ofNat hamount]

theorem exists_shape {command : U8} {width : Nat} {widths : List Nat}
    (hwidths : argumentWidths command = some (width :: widths)) :
    ∃ put, Shape command (width :: widths) put := by
  unfold argumentWidths at hwidths
  split at hwidths
  next => nomatch hwidths
  split at hwidths
  next hcommand =>
    obtain ⟨rfl, rfl⟩ := List.cons.inj (Option.some.inj hwidths)
    exact ⟨_, hcommand ▸ shape_addAccount⟩
  split at hwidths
  next hcommand =>
    obtain ⟨rfl, rfl⟩ := List.cons.inj (Option.some.inj hwidths)
    exact ⟨_, hcommand ▸ shape_makeTransfer⟩
  split at hwidths
  next hcommand =>
    obtain ⟨rfl, rfl⟩ := List.cons.inj (Option.some.inj hwidths)
    exact ⟨_, hcommand ▸ shape_updateAccount⟩
  split at hwidths
  next hcommand =>
    obtain ⟨rfl, rfl⟩ := List.cons.inj (Option.some.inj hwidths)
    exact ⟨_, hcommand ▸ shape_getAccount⟩
  next => nomatch hwidths

/-- Other commands are known and take no argument, or are errors. -/
theorem runCommand_plain {command : U8} (hwidths : argumentWidths command = some []) :
    ∃ request : NetworkRequest, request.command = command ∧ request.values = [] ∧
      networkRequestDecoderRunCommand networkRequestDecoderEmpty command =
        .ok ⟨request, 0, .argument⟩ := by
  have hcommands : ∀ number < 256, argumentWidths (BitVec.ofNat 8 number) = some [] →
      BitVec.ofNat 8 number = (0x3B : U8) ∨ BitVec.ofNat 8 number = (0x23 : U8) ∨
        BitVec.ofNat 8 number = (0x2E : U8) := by
    decide +kernel
  have hcommand := hcommands command.toNat command.isLt
  rw [BitVec.ofNat_toNat, BitVec.setWidth_eq] at hcommand
  rcases hcommand hwidths with rfl | rfl | rfl
  · exact ⟨.magic, rfl, rfl, rfl⟩
  · exact ⟨.countDatabase, rfl, rfl, rfl⟩
  · exact ⟨.close, rfl, rfl, rfl⟩

theorem runCommand_unknown {command : U8} (hwidths : argumentWidths command = none) :
    networkRequestDecoderRunCommand networkRequestDecoderEmpty command =
      .error (.network .requestInvalidCommand) := by
  have hcommands : ∀ number < 256, argumentWidths (BitVec.ofNat 8 number) = none →
      networkRequestDecoderRunCommand networkRequestDecoderEmpty (BitVec.ofNat 8 number) =
        .error (.network .requestInvalidCommand) := by
    decide +kernel
  have hcommand := hcommands command.toNat command.isLt
  rw [BitVec.ofNat_toNat, BitVec.setWidth_eq] at hcommand
  exact hcommand hwidths

end LetDX.LetDB
