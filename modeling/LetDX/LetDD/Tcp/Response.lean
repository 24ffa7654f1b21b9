import LetDX.LetDD.Tcp.Request

/-! # Responses to the proxy

Parsing follows the standard library where it is used: numbers in base sixteen,
space trimmed from both ends, and fields separated by single spaces.
-/

namespace LetDX.LetDD

inductive Response
  | magic
  | addAccount (accountID : U64)
  | getAccount (credits debits : Uint128) (flags : U8)
  | countDatabase (accounts transactions : U64)
  | ok
  | error (code : U16)
  deriving DecidableEq, Repr

inductive ResponseKind
  | magic
  | addAccount
  | getAccount
  | countDatabase
  | ok
  | error
  deriving DecidableEq, Repr

def text (letters : List Char) : List U8 :=
  letters.map character

/-- The constants of the kinds. -/
def ResponseKind.name : ResponseKind → List U8
  | magic => text ['L', 'E', 'T']
  | addAccount => text ['A', 'I', 'D']
  | getAccount => text ['A', 'C', 'C']
  | countDatabase => text ['L', 'E', 'N']
  | ok => text ['O', 'K', 'E']
  | error => text ['E', 'R', 'R']

def Response.kind : Response → ResponseKind
  | magic => .magic
  | addAccount _ => .addAccount
  | getAccount .. => .getAccount
  | countDatabase .. => .countDatabase
  | ok => .ok
  | error _ => .error

/-! ## Numbers -/

/-- The value of a digit in a base up to sixteen, of either case. -/
def digitValue (byte : U8) : Option Nat :=
  if 0x30 ≤ byte ∧ byte ≤ 0x39 then some (byte.toNat - 0x30)
  else if 0x61 ≤ byte ∧ byte ≤ 0x66 then some (byte.toNat - 0x61 + 10)
  else if 0x41 ≤ byte ∧ byte ≤ 0x46 then some (byte.toNat - 0x41 + 10)
  else none

/-- The number with these digits, in a base of two to sixteen, after what has been
read so far. -/
def digitsValue (base : Nat) : Nat → List U8 → Option Nat
  | value, [] => some value
  | value, byte :: rest =>
      match digitValue byte with
      | none => none
      | some digit => if digit < base then digitsValue base (value * base + digit) rest else none

/-- `strconv.ParseUint` in an explicit base of two to sixteen. -/
def parseUint (input : List U8) (base bits : Nat) : Option (BitVec bits) :=
  if input = [] then none
  else
    match digitsValue base 0 input with
    | none => none
    | some value => if value < 2 ^ bits then some (BitVec.ofNat bits value) else none

/-- `big.Int.SetString` in an explicit base of two to sixteen: a sign if there is
one, and digits. -/
def setString (input : List U8) (base : Nat) : Option Int :=
  let digits (rest : List U8) : Option Nat :=
    if rest = [] then none else digitsValue base 0 rest
  match input with
  | [] => none
  | sign :: rest =>
      if sign = character '-' then (digits rest).map fun value => -(value : Int)
      else if sign = character '+' then (digits rest).map Int.ofNat
      else (digits (sign :: rest)).map Int.ofNat

/-- A numeral without a sign is read as such. -/
theorem setString_digits {base : Nat} {byte : U8} (rest : List U8)
    (hminus : byte ≠ character '-') (hplus : byte ≠ character '+') :
    setString (byte :: rest) base =
      (digitsValue base 0 (byte :: rest)).map fun value => ((value : Nat) : Int) := by
  simp only [setString, if_neg hminus, if_neg hplus, if_neg (List.cons_ne_nil byte rest)]
  rfl

/-- `Parse`. The low word of a negative number is that of its two's complement,
and `Uint64` takes the magnitude of its high word. -/
def Uint128.parse (input : List U8) (base : Nat) : Option Uint128 :=
  if input = [] then none
  else
    match setString input base with
    | none => none
    | some number =>
        if number > 2 ^ 128 - 1 then none
        else some
          { high := BitVec.ofNat 64 (number / 2 ^ 64).natAbs
            low := BitVec.ofNat 64 (number % 2 ^ 64).toNat }

/-! ## Lines -/

/-- The characters of `unicode.IsSpace`, in UTF-8. -/
def spaces : List (List U8) :=
  [[0x09], [0x0A], [0x0B], [0x0C], [0x0D], [0x20], [0xC2, 0x85], [0xC2, 0xA0],
    [0xE1, 0x9A, 0x80], [0xE2, 0x80, 0x80], [0xE2, 0x80, 0x81], [0xE2, 0x80, 0x82],
    [0xE2, 0x80, 0x83], [0xE2, 0x80, 0x84], [0xE2, 0x80, 0x85], [0xE2, 0x80, 0x86],
    [0xE2, 0x80, 0x87], [0xE2, 0x80, 0x88], [0xE2, 0x80, 0x89], [0xE2, 0x80, 0x8A],
    [0xE2, 0x80, 0xA8], [0xE2, 0x80, 0xA9], [0xE2, 0x80, 0xAF], [0xE2, 0x81, 0x9F],
    [0xE3, 0x80, 0x80]]

/-- What is left of the data when no word of these comes first. Every round takes
a byte at least. -/
def trimWords (words : List (List U8)) : Nat → List U8 → List U8
  | 0, data => data
  | rounds + 1, data =>
      match words.find? fun word => word.isPrefixOf data with
      | some word => trimWords words rounds (data.drop word.length)
      | none => data

/-- `bytes.TrimSpace`, at the end by the same spaces read backwards. -/
def trimSpace (data : List U8) : List U8 :=
  let data := trimWords spaces data.length data
  (trimWords (spaces.map List.reverse) data.length data.reverse).reverse

/-- A no-break space is trimmed, and half of one is not. -/
example : trimSpace [0x20, 0xC2, 0xA0, 0x4F, 0xA0, 0xE3, 0x80, 0x80, 0x0A] = [0x4F, 0xA0] := by
  decide

/-- `bytes.Split` at single spaces. -/
def splitSpaces (data : List U8) : List (List U8) :=
  data.splitOn (character ' ')

/-- The first field is the kind, which decides how many fields must follow. -/
def parseParameters : List (List U8) → Option Response
  | [] => none
  | kind :: parameters =>
      if kind = ResponseKind.magic.name then
        if parameters.length = 0 then some .magic else none
      else if kind = ResponseKind.ok.name then
        if parameters.length = 0 then some .ok else none
      else if kind = ResponseKind.addAccount.name then
        match parameters with
        | [accountID] => (parseUint accountID 16 64).map .addAccount
        | _ => none
      else if kind = ResponseKind.getAccount.name then
        match parameters with
        | [credits, debits, flags] => do
            let credits ← Uint128.parse credits 16
            let debits ← Uint128.parse debits 16
            let flags ← parseUint flags 16 8
            return .getAccount credits debits flags
        | _ => none
      else if kind = ResponseKind.countDatabase.name then
        match parameters with
        | [accounts, transactions] => do
            let accounts ← parseUint accounts 16 64
            let transactions ← parseUint transactions 16 64
            return .countDatabase accounts transactions
        | _ => none
      else if kind = ResponseKind.error.name then
        match parameters with
        | [code] => (parseUint code 16 16).map .error
        | _ => none
      else none

def parseResponse (data : List U8) : Option Response :=
  let data := trimSpace data
  if data = [] then none
  else parseParameters (splitSpaces data)

end LetDX.LetDD
