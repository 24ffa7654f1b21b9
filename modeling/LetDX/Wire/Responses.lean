import LetDX.LetDB.Network.Encoding
import LetDX.LetDD.Tcp.Response

/-! # Responses between the two programs

What the server encodes is parsed as the response meant.
-/

namespace LetDX

open Bytes

namespace LetDD

def Uint128.ofU128 (value : U128) : Uint128 where
  high := BitVec.ofNat 64 (value.toNat / 2 ^ 64)
  low := BitVec.ofNat 64 (value.toNat % 2 ^ 64)

theorem Uint128.toNat_ofU128 (value : U128) : (ofU128 value).toNat = value.toNat := by
  have hhigh : value.toNat / 2 ^ 64 < 2 ^ 64 := by
    rw [Nat.div_lt_iff_lt_mul (by decide)]
    exact value.isLt
  have hlow : value.toNat % 2 ^ 64 < 2 ^ 64 := Nat.mod_lt _ (by decide)
  rw [toNat, ofU128, BitVec.toNat_ofNat, BitVec.toNat_ofNat, Nat.mod_eq_of_lt hhigh,
    Nat.mod_eq_of_lt hlow, Nat.div_add_mod']

end LetDD

/-- The response to the proxy that a response of the server means. -/
def LetDB.NetworkResponse.meaning : LetDB.NetworkResponse → LetDD.Response
  | magic => .magic
  | addAccount accountId => .addAccount accountId
  | getAccount credits debits flags => .getAccount (.ofU128 credits) (.ofU128 debits) flags
  | countDatabase accounts entries => .countDatabase accounts entries
  | ok => .ok
  | error reason => .error (LetDB.errorCode reason)

/-- A response of the server and one to the proxy are of the same kind, with
numerically equal fields. -/
inductive Corresponds : LetDB.NetworkResponse → LetDD.Response → Prop
  | magic : Corresponds .magic .magic
  | addAccount {accountId accountID : U64} (hid : accountID.toNat = accountId.toNat) :
      Corresponds (.addAccount accountId) (.addAccount accountID)
  | getAccount {credits debits : U128} {flags flags' : U8} {credits' debits' : LetDD.Uint128}
      (hcredits : credits'.toNat = credits.toNat) (hdebits : debits'.toNat = debits.toNat)
      (hflags : flags'.toNat = flags.toNat) :
      Corresponds (.getAccount credits debits flags) (.getAccount credits' debits' flags')
  | countDatabase {accounts entries accounts' transactions : U64}
      (haccounts : accounts'.toNat = accounts.toNat)
      (htransactions : transactions.toNat = entries.toNat) :
      Corresponds (.countDatabase accounts entries) (.countDatabase accounts' transactions)
  | ok : Corresponds .ok .ok
  | error {reason : LetDB.Error} {code : U16}
      (hcode : code.toNat = (LetDB.errorCode reason).toNat) :
      Corresponds (.error reason) (.error code)

theorem Corresponds.meaning (response : LetDB.NetworkResponse) :
    Corresponds response response.meaning := by
  cases response with
  | magic => exact .magic
  | addAccount => exact .addAccount rfl
  | getAccount credits debits flags =>
      exact .getAccount (LetDD.Uint128.toNat_ofU128 credits) (LetDD.Uint128.toNat_ofU128 debits) rfl
  | countDatabase => exact .countDatabase rfl rfl
  | ok => exact .ok
  | error => exact .error rfl

namespace LetDD

/-! ## Numbers -/

theorem digitsValue_append (base value : Nat) (first second : List U8) :
    digitsValue base value (first ++ second) =
      (digitsValue base value first).bind fun value => digitsValue base value second := by
  induction first generalizing value with
  | nil => rfl
  | cons byte first ih =>
      rw [List.cons_append, digitsValue, digitsValue]
      cases digitValue byte with
      | none => rfl
      | some digit =>
          dsimp only
          split
          · exact ih _
          · rfl

theorem digitsValue_hexByte (value : Nat) (byte : U8) :
    digitsValue 16 value (LetDB.hexByte byte) = some (byte.toNat + 256 * value) := by
  have hdigits : ∀ number < 256,
      digitValue (LetDB.hexDigit (BitVec.ofNat 8 number >>> 4 &&& 0x0F)) = some (number / 16) ∧
        digitValue (LetDB.hexDigit (BitVec.ofNat 8 number &&& 0x0F)) = some (number % 16) := by
    decide +kernel
  obtain ⟨hhigh, hlow⟩ := hdigits byte.toNat byte.isLt
  rw [BitVec.ofNat_toNat, BitVec.setWidth_eq] at hhigh hlow
  have hbyte := byte.isLt
  have hfirst : byte.toNat / 16 < 16 := by omega
  have hsecond : byte.toNat % 16 < 16 := by omega
  simp only [LetDB.hexByte, digitsValue, hhigh, hlow, hfirst, hsecond, if_true, Option.some.injEq]
  omega

theorem digitsValue_reverse (bytes : List U8) :
    digitsValue 16 0 (bytes.reverse.flatMap LetDB.hexByte) = some (ofLittleEndian bytes) := by
  induction bytes with
  | nil => rfl
  | cons byte bytes ih =>
      rw [List.reverse_cons, List.flatMap_append, digitsValue_append, ih, Option.bind_some,
        List.flatMap_singleton, digitsValue_hexByte, ofLittleEndian]

theorem digitsValue_hexadecimal {size value : Nat} (hvalue : value < 256 ^ size) :
    digitsValue 16 0 (LetDB.hexadecimal size value) = some value := by
  have hlength : (toLittleEndian size value).length = size := length_toLittleEndian size value
  rw [LetDB.hexadecimal, digitsValue_reverse, LetDB.ofLittleEndian_take_skip _ _ hlength.ge,
    List.take_of_length_le hlength.le, ofLittleEndian_toLittleEndian, Nat.mod_eq_of_lt hvalue]

theorem parseUint_hexadecimal {bits size : Nat} (value : BitVec bits) (hsize : 0 < size)
    (hbits : 2 ^ bits = 256 ^ size) :
    parseUint (LetDB.hexadecimal size value.toNat) 16 bits = some value := by
  rw [parseUint, if_neg (LetDB.hexadecimal_ne_nil hsize),
    digitsValue_hexadecimal (hbits ▸ value.isLt)]
  dsimp only
  rw [if_pos value.isLt, BitVec.ofNat_toNat, BitVec.setWidth_eq]

theorem parse_hexadecimal (value : U128) :
    Uint128.parse (LetDB.hexadecimal 16 value.toNat) 16 = some (.ofU128 value) := by
  have hunsigned : ∀ byte ∈ LetDB.networkResponseEncoderHexDigits,
      byte ≠ character '-' ∧ byte ≠ character '+' := by decide
  have hnonempty : LetDB.hexadecimal 16 value.toNat ≠ [] :=
    LetDB.hexadecimal_ne_nil (by decide)
  have hlarge : ¬(value.toNat : Int) > 2 ^ 128 - 1 := by
    have hvalue := value.isLt
    omega
  obtain ⟨byte, rest, hnumeral⟩ := List.exists_cons_of_ne_nil hnonempty
  obtain ⟨hminus, hplus⟩ := hunsigned byte
    (LetDB.mem_hexadecimal (hnumeral ▸ List.mem_cons_self ..))
  rw [Uint128.parse, if_neg hnonempty, hnumeral, setString_digits rest hminus hplus, ← hnumeral,
    digitsValue_hexadecimal value.isLt]
  dsimp only [Option.map_some]
  rw [if_neg hlarge]
  rfl

/-! ## Lines -/

/-- No space begins or ends with this byte. -/
def Printed (byte : U8) : Prop :=
  ∀ word ∈ spaces ++ spaces.map List.reverse, word ≠ [] ∧ word.head? ≠ some byte

instance : DecidablePred Printed := fun byte =>
  inferInstanceAs (Decidable (∀ word ∈ _, word ≠ [] ∧ word.head? ≠ some byte))

theorem trimWords_cons {words : List (List U8)} {byte : U8} (rounds : Nat) (data : List U8)
    (hwords : ∀ word ∈ words, word ≠ [] ∧ word.head? ≠ some byte) :
    trimWords words rounds (byte :: data) = byte :: data := by
  have hnone : (words.find? fun word => word.isPrefixOf (byte :: data)) = none := by
    refine List.find?_eq_none.mpr fun word hmem hprefix => ?_
    obtain ⟨hnonempty, hhead⟩ := hwords word hmem
    obtain ⟨first, rest, rfl⟩ := List.exists_cons_of_ne_nil hnonempty
    have hsame := (List.cons_prefix_cons.mp (List.isPrefixOf_iff_prefix.mp hprefix)).1
    exact hhead (congrArg some hsame)
  cases rounds with
  | zero => rfl
  | succ rounds => rw [trimWords, hnone]

theorem printed_of_mem_fields {response : LetDB.NetworkResponse} {field : List U8} {byte : U8}
    (hfield : field ∈ response.fields) (hbyte : byte ∈ field) : Printed byte := by
  have hdigits : ∀ byte ∈ LetDB.networkResponseEncoderHexDigits, Printed byte := by
    decide +kernel
  have hletters : ∀ byte ∈
      LetDB.ascii ['L', 'E', 'T', 'A', 'I', 'D', 'C', 'N', 'O', 'K', 'R'], Printed byte := by
    decide +kernel
  rcases LetDB.NetworkResponse.mem_fields hfield hbyte with hmem | hmem
  · exact hdigits byte hmem
  · exact hletters byte hmem

theorem space_notMem_fields {response : LetDB.NetworkResponse} {field : List U8}
    (hfield : field ∈ response.fields) : character ' ' ∉ field := fun hmem =>
  (printed_of_mem_fields hfield hmem [character ' '] (by decide)).2 rfl

theorem fields_ne_nil (response : LetDB.NetworkResponse) {field : List U8}
    (hfield : field ∈ response.fields) : field ≠ [] := by
  rcases List.mem_cons.mp hfield with rfl | hfield
  · cases response <;> exact List.cons_ne_nil _ _
  · obtain ⟨⟨size, value⟩, hinteger, rfl⟩ := List.mem_map.mp hfield
    apply LetDB.hexadecimal_ne_nil
    cases response <;> simp [LetDB.NetworkResponse.integers] at hinteger <;> omega

/-- With words that are not empty, no space stands at either end. -/
theorem intercalate_ends {fields : List (List U8)} (hfields : fields ≠ [])
    (hwords : ∀ field ∈ fields, field ≠ [] ∧ ∀ byte ∈ field, Printed byte) :
    ∃ first last, ([character ' '].intercalate fields).head? = some first ∧
      ([character ' '].intercalate fields).getLast? = some last ∧
      Printed first ∧ Printed last := by
  induction fields with
  | nil => exact (hfields rfl).elim
  | cons field fields ih =>
      obtain ⟨hword, hspaces⟩ := hwords field (List.mem_cons_self ..)
      have hhead : field.head? = some (field.head hword) := List.head?_eq_some_head hword
      have hlast : field.getLast? = some (field.getLast hword) :=
        List.getLast?_eq_some_getLast hword
      cases fields with
      | nil =>
          rw [List.intercalate_singleton]
          exact ⟨_, _, hhead, hlast, hspaces _ (List.head_mem hword),
            hspaces _ (List.getLast_mem hword)⟩
      | cons next fields =>
          obtain ⟨_, last, _, hlast', _, hspace⟩ := ih (List.cons_ne_nil _ _)
            fun field hmem => hwords field (List.mem_cons_of_mem _ hmem)
          refine ⟨_, last, ?_, ?_, hspaces _ (List.head_mem hword), hspace⟩
          · rw [List.intercalate_cons_cons, List.append_assoc, List.head?_append, hhead]
            rfl
          · rw [List.intercalate_cons_cons, List.getLast?_append, hlast']
            rfl

theorem trimSpace_line {body : List U8} {first last : U8} (hfirst : body.head? = some first)
    (hlast : body.getLast? = some last) (hfirst' : Printed first) (hlast' : Printed last) :
    trimSpace (body ++ [LetDB.asciiNewline]) = body := by
  have hfront (rounds : Nat) : trimWords spaces rounds (body ++ [LetDB.asciiNewline]) =
      body ++ [LetDB.asciiNewline] := by
    cases body with
    | nil => nomatch hfirst
    | cons byte body =>
        obtain rfl := Option.some.inj hfirst
        exact trimWords_cons rounds _ fun word hmem =>
          hfirst' word (List.mem_append_left _ hmem)
  have hback (rounds : Nat) :
      trimWords (spaces.map List.reverse) rounds body.reverse = body.reverse := by
    rw [← List.head?_reverse] at hlast
    cases hreverse : body.reverse with
    | nil => cases hreverse ▸ hlast
    | cons byte rest =>
        rw [hreverse] at hlast
        obtain rfl := Option.some.inj hlast
        exact trimWords_cons rounds rest fun word hmem =>
          hlast' word (List.mem_append_right _ hmem)
  -- The newline is a space.
  have hnewline (rounds : Nat) : trimWords (spaces.map List.reverse) (rounds + 1)
      (LetDB.asciiNewline :: body.reverse) =
        trimWords (spaces.map List.reverse) rounds body.reverse := rfl
  rw [trimSpace, hfront, List.reverse_append, List.reverse_singleton, List.singleton_append,
    List.length_append, List.length_singleton, hnewline, hback, List.reverse_reverse]

theorem parseParameters_fields (response : LetDB.NetworkResponse) :
    parseParameters response.fields = some response.meaning := by
  cases response with
  | magic => rfl
  | ok => rfl
  | addAccount accountId =>
      have hfields : LetDB.NetworkResponse.fields (.addAccount accountId) =
          [ResponseKind.addAccount.name, LetDB.hexadecimal 8 accountId.toNat] := rfl
      rw [hfields, parseParameters, if_neg (by decide), if_neg (by decide), if_pos rfl]
      rw [parseUint_hexadecimal accountId (by decide) (by decide)]
      rfl
  | getAccount credits debits flags =>
      have hfields : LetDB.NetworkResponse.fields (.getAccount credits debits flags) =
          [ResponseKind.getAccount.name, LetDB.hexadecimal 16 credits.toNat,
            LetDB.hexadecimal 16 debits.toNat, LetDB.hexadecimal 1 flags.toNat] := rfl
      rw [hfields, parseParameters, if_neg (by decide), if_neg (by decide), if_neg (by decide),
        if_pos rfl]
      rw [parse_hexadecimal, parse_hexadecimal,
        parseUint_hexadecimal flags (by decide) (by decide)]
      rfl
  | countDatabase accounts entries =>
      have hfields : LetDB.NetworkResponse.fields (.countDatabase accounts entries) =
          [ResponseKind.countDatabase.name, LetDB.hexadecimal 8 accounts.toNat,
            LetDB.hexadecimal 8 entries.toNat] := rfl
      rw [hfields, parseParameters, if_neg (by decide), if_neg (by decide), if_neg (by decide),
        if_neg (by decide), if_pos rfl]
      rw [parseUint_hexadecimal accounts (by decide) (by decide),
        parseUint_hexadecimal entries (by decide) (by decide)]
      rfl
  | error reason =>
      have hfields : LetDB.NetworkResponse.fields (.error reason) =
          [ResponseKind.error.name, LetDB.hexadecimal 2 (LetDB.errorCode reason).toNat] := rfl
      rw [hfields, parseParameters, if_neg (by decide), if_neg (by decide), if_neg (by decide),
        if_neg (by decide), if_neg (by decide), if_pos rfl]
      rw [parseUint_hexadecimal (LetDB.errorCode reason) (by decide) (by decide)]
      rfl

end LetDD

open LetDD in
/-- The response round trip. -/
theorem parseResponse_bytes (response : LetDB.NetworkResponse) :
    parseResponse response.bytes = some response.meaning := by
  have hfields : response.fields ≠ [] := List.cons_ne_nil _ _
  have hspace : LetDB.asciiSpace = character ' ' := rfl
  obtain ⟨first, last, hfirst, hlast, hfirst', hlast'⟩ := intercalate_ends hfields
    fun field hmem => ⟨fields_ne_nil response hmem, fun _ => printed_of_mem_fields hmem⟩
  have hbody : [character ' '].intercalate response.fields ≠ [] := by
    intro hnil
    rw [hnil] at hfirst
    nomatch hfirst
  rw [parseResponse, response.bytes_eq, hspace, trimSpace_line hfirst hlast hfirst' hlast',
    if_neg hbody, splitSpaces, List.splitOn_intercalate _ (fun _ => space_notMem_fields) hfields,
    parseParameters_fields]

/-- Encoding any response succeeds, and the proxy parses the bytes as the
corresponding response. -/
theorem networkResponseEncode_parseResponse (response : LetDB.NetworkResponse) (output : Nat) :
    ∃ bytes parsed,
      LetDB.networkResponseEncode response LetDB.networkBufferLength output =
        (.none, bytes, bytes.length) ∧
      LetDD.parseResponse bytes = some parsed ∧ Corresponds response parsed := by
  refine ⟨response.bytes, response.meaning, ?_, parseResponse_bytes response, .meaning response⟩
  rw [LetDB.networkResponseEncode, response.bytes_eq, LetDB.networkResponseEncoderRun_eq]
  rfl

end LetDX
