import LetDX.Bytes.Decimal
import LetDX.LetDB.Network.Request

/-! # Decoding canonical lines

A line whose arguments are canonical numerals decodes to the request that has
them. Each argument is parsed digit by digit into its member of the union.
-/

namespace LetDX.LetDB

open Bytes

/-- The canonical line of a request, without its end. -/
def NetworkRequest.line : NetworkRequest → List U8
  | magic => [0x3B]
  | addAccount walId credits debits flags =>
      0x2B :: decimal walId.toNat ++ asciiSpace :: decimal credits.toNat ++
        asciiSpace :: decimal debits.toNat ++ asciiSpace :: decimal flags.toNat
  | makeTransfer walId fromId toId amount =>
      0x25 :: decimal walId.toNat ++ asciiSpace :: decimal fromId.toNat ++
        asciiSpace :: decimal toId.toNat ++ asciiSpace :: decimal amount.toNat
  | getAccount accountId => 0x3F :: decimal accountId.toNat
  | countDatabase => [0x23]
  | updateAccount walId accountId flags =>
      0x3D :: decimal walId.toNat ++ asciiSpace :: decimal accountId.toNat ++
        asciiSpace :: decimal flags.toNat
  | close => [0x2E]

/-! ## One byte -/

theorem digit_bounds : ∀ figure < 10, 0x30 ≤ digit figure ∧ digit figure ≤ 0x39 ∧
    digit figure ≠ asciiSpace ∧ (digit figure - 0x30).toNat = figure := by
  decide

/-- A digit is added behind the value so far, if the result fits. -/
theorem parseU128_digit {argc figure : Nat} {output : U128} (hfigure : figure < 10)
    (hfits : output.toNat * 10 + figure < 2 ^ 128) :
    networkRequestDecoderParseU128 argc (digit figure) output =
      .ok (argc, BitVec.ofNat 128 (output.toNat * 10 + figure)) := by
  obtain ⟨hlow, hhigh, _, hvalue⟩ := digit_bounds figure hfigure
  have hten : (10 : U128).toNat = 10 := rfl
  have hdigit : ((digit figure - 0x30).setWidth 128).toNat = figure := by
    rw [BitVec.toNat_setWidth, hvalue]
    exact Nat.mod_eq_of_lt (hfigure.trans (by decide))
  have hshifted : (output * 10).toNat = output.toNat * 10 := by
    rw [BitVec.toNat_mul_of_lt, hten]
    rw [hten]
    exact (Nat.le_add_right _ _).trans_lt hfits
  have hroom : ¬output > BitVec.allOnes 128 / 10 := by
    rw [gt_iff_lt, BitVec.not_lt, BitVec.le_def, BitVec.toNat_udiv, BitVec.toNat_allOnes, hten,
      Nat.le_div_iff_mul_le (by decide)]
    exact Nat.le_sub_one_of_lt ((Nat.le_add_right _ _).trans_lt hfits)
  have hbelow : output.toNat * 10 ≤ 2 ^ 128 - 1 :=
    Nat.le_sub_one_of_lt ((Nat.le_add_right _ _).trans_lt hfits)
  have hroom' : ¬(digit figure - 0x30).setWidth 128 > BitVec.allOnes 128 - output * 10 := by
    have hle : output * 10 ≤ BitVec.allOnes 128 := by
      rwa [BitVec.le_def, hshifted, BitVec.toNat_allOnes]
    rw [gt_iff_lt, BitVec.not_lt, BitVec.le_def, hdigit, BitVec.toNat_sub_of_le hle,
      BitVec.toNat_allOnes, hshifted]
    exact Nat.le_sub_of_add_le (Nat.le_sub_one_of_lt (Nat.add_comm _ _ ▸ hfits))
  unfold networkRequestDecoderParseU128
  dsimp only
  rw [if_pos ⟨hlow, hhigh⟩, if_neg hroom, if_neg hroom']
  congr 2
  apply BitVec.eq_of_toNat_eq
  rw [BitVec.toNat_add_of_lt, hshifted, hdigit, BitVec.toNat_ofNat, Nat.mod_eq_of_lt hfits]
  rwa [hshifted, hdigit]

theorem parseU128_space {argc : Nat} {output : U128} :
    networkRequestDecoderParseU128 argc asciiSpace output = .ok (argc - 1, output) := by
  rfl

/-- Parsing 128 bits is parsing fewer bits without the check. -/
theorem parseU128_eq (argc : Nat) (byte : U8) (output : U128) :
    networkRequestDecoderParseU128 argc byte output =
      networkRequestDecoderParseNarrow 128 argc byte output := by
  have hmax (value : U128) : ¬value > (BitVec.allOnes 128).setWidth 128 := by
    rw [BitVec.setWidth_eq, gt_iff_lt, BitVec.not_lt, BitVec.le_def, BitVec.toNat_allOnes]
    exact Nat.le_sub_one_of_lt value.isLt
  unfold networkRequestDecoderParseNarrow
  rw [BitVec.setWidth_eq]
  cases networkRequestDecoderParseU128 argc byte output with
  | error error => rfl
  | ok parsed =>
      obtain ⟨argc', value⟩ := parsed
      dsimp only
      rw [if_neg (hmax value), BitVec.setWidth_eq]

section Narrow

variable {bits argc : Nat}

/-- A narrow integer passes the check after parsing. -/
theorem parseNarrow_of_parseU128 (hbits : bits ≤ 128) {byte : U8} {argc' : Nat}
    {output output' : BitVec bits}
    (hparsed : networkRequestDecoderParseU128 argc byte (output.setWidth 128) =
      .ok (argc', output'.setWidth 128)) :
    networkRequestDecoderParseNarrow bits argc byte output = .ok (argc', output') := by
  have hfits : ¬output'.setWidth 128 > (BitVec.allOnes bits).setWidth 128 := by
    rw [gt_iff_lt, BitVec.not_lt, BitVec.le_def, BitVec.toNat_setWidth_of_le hbits,
      BitVec.toNat_setWidth_of_le hbits, BitVec.toNat_allOnes]
    exact Nat.le_sub_one_of_lt output'.isLt
  unfold networkRequestDecoderParseNarrow
  rw [hparsed]
  dsimp only
  rw [if_neg hfits, BitVec.setWidth_setWidth_of_le _ hbits, BitVec.setWidth_eq]

theorem parseNarrow_digit (hbits : bits ≤ 128) {figure : Nat} {output : BitVec bits}
    (hfigure : figure < 10) (hfits : output.toNat * 10 + figure < 2 ^ bits) :
    networkRequestDecoderParseNarrow bits argc (digit figure) output =
      .ok (argc, BitVec.ofNat bits (output.toNat * 10 + figure)) := by
  have hwide : 2 ^ bits ≤ 2 ^ 128 := Nat.pow_le_pow_right (by decide) hbits
  have houtput : (output.setWidth 128).toNat = output.toNat := BitVec.toNat_setWidth_of_le hbits
  apply parseNarrow_of_parseU128 hbits
  rw [parseU128_digit hfigure (by rw [houtput]; exact hfits.trans_le hwide), houtput]
  congr 2
  apply BitVec.eq_of_toNat_eq
  rw [BitVec.toNat_setWidth_of_le hbits, BitVec.toNat_ofNat, BitVec.toNat_ofNat,
    Nat.mod_eq_of_lt hfits, Nat.mod_eq_of_lt (hfits.trans_le hwide)]

theorem parseNarrow_space (hbits : bits ≤ 128) {output : BitVec bits} :
    networkRequestDecoderParseNarrow bits argc asciiSpace output = .ok (argc - 1, output) :=
  parseNarrow_of_parseU128 hbits parseU128_space

end Narrow

/-! ## One argument -/

/-- An argument of this width is due and is stored by `put`. -/
structure Slot (bits argc : Nat) (put : BitVec bits → NetworkRequest) : Prop where
  narrow : bits ≤ 128
  due : 0 < argc
  stores : ∀ (byte : U8) (value : BitVec bits),
    networkRequestDecoderRunValue ⟨put value, argc, .argument⟩ byte =
      (networkRequestDecoderParseNarrow bits argc byte value).map fun (argc, value) =>
        ⟨put value, argc, .argument⟩

namespace Slot

variable {bits argc : Nat} {put : BitVec bits → NetworkRequest} {value : BitVec bits}
  {rest : List U8}

theorem run_digit (hslot : Slot bits argc put) {figure : Nat} (hfigure : figure < 10)
    (hfits : value.toNat * 10 + figure < 2 ^ bits) :
    networkRequestDecoderRunBytes ⟨put value, argc, .argument⟩ (digit figure :: rest) =
      networkRequestDecoderRunBytes
        ⟨put (BitVec.ofNat bits (value.toNat * 10 + figure)), argc, .argument⟩ rest := by
  obtain ⟨_, _, hspace, _⟩ := digit_bounds figure hfigure
  have hargument : networkRequestDecoderRunArgument ⟨put value, argc, .argument⟩ (digit figure) =
      .ok ⟨put (BitVec.ofNat bits (value.toNat * 10 + figure)), argc, .argument⟩ := by
    unfold networkRequestDecoderRunArgument
    dsimp only
    rw [if_neg (Nat.ne_of_gt hslot.due), if_neg (fun h => hspace h.2), hslot.stores,
      parseNarrow_digit hslot.narrow hfigure hfits]
    rfl
  rw [networkRequestDecoderRunBytes]
  dsimp only
  rw [hargument]

/-- The numeral of an argument stores it, digit by digit from the front. -/
theorem run_decimal (hslot : Slot bits argc put) {number : Nat} (hnumber : number < 2 ^ bits) :
    networkRequestDecoderRunBytes ⟨put 0, argc, .argument⟩ (decimal number ++ rest) =
      networkRequestDecoderRunBytes ⟨put (BitVec.ofNat bits number), argc, .argument⟩ rest := by
  induction number using Nat.strongRecOn generalizing rest with
  | ind number ih =>
      by_cases hsmall : number < 10
      · have hzero : (0 : BitVec bits).toNat * 10 + number = number := by simp
        rw [decimal_of_lt hsmall, List.singleton_append,
          hslot.run_digit hsmall (hzero.symm ▸ hnumber), hzero]
      · have hlarge : 10 ≤ number := Nat.not_lt.mp hsmall
        have hleading : number / 10 < 2 ^ bits := (Nat.div_le_self _ _).trans_lt hnumber
        have hwhole : (BitVec.ofNat bits (number / 10)).toNat * 10 + number % 10 = number := by
          rw [BitVec.toNat_ofNat, Nat.mod_eq_of_lt hleading]
          omega
        rw [decimal_of_ge hlarge, List.append_assoc, ih _ (by omega) hleading,
          List.singleton_append, hslot.run_digit (Nat.mod_lt _ (by decide)), hwhole]
        rwa [hwhole]

theorem run_value (hslot : Slot bits argc put) (value : BitVec bits) :
    networkRequestDecoderRunBytes ⟨put 0, argc, .argument⟩ (decimal value.toNat ++ rest) =
      networkRequestDecoderRunBytes ⟨put value, argc, .argument⟩ rest := by
  rw [hslot.run_decimal value.isLt, BitVec.ofNat_toNat, BitVec.setWidth_eq]

/-- A space leads on to the next argument. -/
theorem run_space (hslot : Slot bits argc put) (hmore : argc ≠ 1) :
    networkRequestDecoderRunBytes ⟨put value, argc, .argument⟩ (asciiSpace :: rest) =
      networkRequestDecoderRunBytes ⟨put value, argc - 1, .argument⟩ rest := by
  have hargument : networkRequestDecoderRunArgument ⟨put value, argc, .argument⟩ asciiSpace =
      .ok ⟨put value, argc - 1, .argument⟩ := by
    unfold networkRequestDecoderRunArgument
    dsimp only
    rw [if_neg (Nat.ne_of_gt hslot.due), if_neg (fun h => hmore h.1), hslot.stores,
      parseNarrow_space hslot.narrow]
    rfl
  rw [networkRequestDecoderRunBytes]
  dsimp only
  rw [hargument]

/-- One argument and the space behind it, before others. -/
theorem run_next (hslot : Slot bits argc put) (hmore : argc ≠ 1) (value : BitVec bits) :
    networkRequestDecoderRunBytes ⟨put 0, argc, .argument⟩
        (decimal value.toNat ++ asciiSpace :: rest) =
      networkRequestDecoderRunBytes ⟨put value, argc - 1, .argument⟩ rest := by
  rw [hslot.run_value, hslot.run_space hmore]

/-- The last argument and the end of the line. -/
theorem run_last {put : BitVec bits → NetworkRequest} (hslot : Slot bits 1 put)
    (value : BitVec bits) :
    networkRequestDecoderRunBytes ⟨put 0, 1, .argument⟩ (decimal value.toNat ++ [asciiSpace]) =
      .ok (⟨put value, 0, .end⟩, []) := by
  rw [hslot.run_value]
  rfl

end Slot

theorem stores_u128 {argc : Nat} {put : U128 → NetworkRequest}
    (hstores : ∀ byte value, networkRequestDecoderRunValue ⟨put value, argc, .argument⟩ byte =
      (networkRequestDecoderParseU128 argc byte value).map fun (argc, value) =>
        ⟨put value, argc, .argument⟩) (hdue : 0 < argc) : Slot 128 argc put where
  narrow := Nat.le_refl _
  due := hdue
  stores byte value := by rw [hstores, parseU128_eq]

/-! ## Whole lines -/

/-- The canonical line of a request decodes to the request. -/
theorem networkRequestDecoderRun_line (request : NetworkRequest) :
    networkRequestDecoderRun (request.line ++ [asciiSpace]) = .ok request := by
  have hrun : networkRequestDecoderRunBytes networkRequestDecoderEmpty
      (request.line ++ [asciiSpace]) = .ok (⟨request, 0, .end⟩, []) := by
    cases request with
    | magic => rfl
    | countDatabase => rfl
    | close => rfl
    | getAccount accountId =>
        have hslot : Slot 64 1 .getAccount := ⟨by decide, by decide, fun _ _ => rfl⟩
        exact hslot.run_last accountId
    -- While an argument is read, those before it are in place and those after it are zero.
    | updateAccount walId accountId flags =>
        have hwalId : Slot 64 3 (.updateAccount · 0 0) := ⟨by decide, by decide, fun _ _ => rfl⟩
        have haccountId : Slot 64 2 (.updateAccount walId · 0) :=
          ⟨by decide, by decide, fun _ _ => rfl⟩
        have hflags : Slot 8 1 (.updateAccount walId accountId ·) :=
          ⟨by decide, by decide, fun _ _ => rfl⟩
        simp only [NetworkRequest.line, List.cons_append, List.append_assoc]
        exact (hwalId.run_next (by decide) walId).trans
          ((haccountId.run_next (by decide) accountId).trans (hflags.run_last flags))
    | addAccount walId credits debits flags =>
        have hwalId : Slot 64 4 (.addAccount · 0 0 0) := ⟨by decide, by decide, fun _ _ => rfl⟩
        have hcredits : Slot 128 3 (.addAccount walId · 0 0) :=
          stores_u128 (fun _ _ => rfl) (by decide)
        have hdebits : Slot 128 2 (.addAccount walId credits · 0) :=
          stores_u128 (fun _ _ => rfl) (by decide)
        have hflags : Slot 8 1 (.addAccount walId credits debits ·) :=
          ⟨by decide, by decide, fun _ _ => rfl⟩
        simp only [NetworkRequest.line, List.cons_append, List.append_assoc]
        exact (hwalId.run_next (by decide) walId).trans
          ((hcredits.run_next (by decide) credits).trans
            ((hdebits.run_next (by decide) debits).trans (hflags.run_last flags)))
    | makeTransfer walId fromId toId amount =>
        have hwalId : Slot 64 4 (.makeTransfer · 0 0 0) := ⟨by decide, by decide, fun _ _ => rfl⟩
        have hfromId : Slot 64 3 (.makeTransfer walId · 0 0) :=
          ⟨by decide, by decide, fun _ _ => rfl⟩
        have htoId : Slot 64 2 (.makeTransfer walId fromId · 0) :=
          ⟨by decide, by decide, fun _ _ => rfl⟩
        have hamount : Slot 128 1 (.makeTransfer walId fromId toId ·) :=
          stores_u128 (fun _ _ => rfl) (by decide)
        simp only [NetworkRequest.line, List.cons_append, List.append_assoc]
        exact (hwalId.run_next (by decide) walId).trans
          ((hfromId.run_next (by decide) fromId).trans
            ((htoId.run_next (by decide) toId).trans (hamount.run_last amount)))
  have hnonempty : request.line ++ [asciiSpace] ≠ [] := by simp
  rw [networkRequestDecoderRun, if_neg hnonempty, hrun]
  rfl

theorem length_decimal_u64_le (value : U64) : (decimal value.toNat).length ≤ 20 :=
  length_decimal_le (by decide) (value.isLt.trans (by decide))

theorem length_decimal_u128_le (value : U128) : (decimal value.toNat).length ≤ 39 :=
  length_decimal_le (by decide) (value.isLt.trans (by decide))

theorem length_decimal_u8_le (value : U8) : (decimal value.toNat).length ≤ 3 :=
  length_decimal_le (by decide) (value.isLt.trans (by decide))

/-- No canonical line reaches the length of the buffer. -/
theorem NetworkRequest.length_line_le (request : NetworkRequest) : request.line.length ≤ 105 := by
  cases request with
  | magic | countDatabase | close => decide
  | getAccount accountId =>
      have := length_decimal_u64_le accountId
      simp only [line, List.length_cons]
      omega
  | updateAccount walId accountId flags =>
      have := length_decimal_u64_le walId
      have := length_decimal_u64_le accountId
      have := length_decimal_u8_le flags
      simp only [line, List.length_append, List.length_cons]
      omega
  | addAccount walId credits debits flags =>
      have := length_decimal_u64_le walId
      have := length_decimal_u128_le credits
      have := length_decimal_u128_le debits
      have := length_decimal_u8_le flags
      simp only [line, List.length_append, List.length_cons]
      omega
  | makeTransfer walId fromId toId amount =>
      have := length_decimal_u64_le walId
      have := length_decimal_u64_le fromId
      have := length_decimal_u64_le toId
      have := length_decimal_u128_le amount
      simp only [line, List.length_append, List.length_cons]
      omega

theorem newline_notMem_decimal (number : Nat) : asciiNewline ∉ decimal number := by
  have hdigits : ∀ figure < 10, asciiNewline ≠ digit figure := by decide
  intro hmem
  obtain ⟨figure, hfigure, hdigit⟩ := mem_decimal hmem
  exact hdigits figure hfigure hdigit

theorem NetworkRequest.newline_notMem_line (request : NetworkRequest) :
    asciiNewline ∉ request.line := by
  have hspace : asciiNewline ≠ asciiSpace := by decide
  have hcommand : ∀ command ∈ ([0x2B, 0x25, 0x3F, 0x3D] : List U8), asciiNewline ≠ command := by
    decide
  cases request with
  | magic | countDatabase | close => decide
  | getAccount | updateAccount | addAccount | makeTransfer =>
      simp [line, newline_notMem_decimal, hspace, hcommand]

end LetDX.LetDB
