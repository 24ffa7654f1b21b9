import LetDX.LetDD.Uint128

/-! # Requests of the proxy -/

namespace LetDX.LetDD

open Bytes

/-- The types that implement the interface `Request`. -/
inductive Request
  | magic
  | addAccount (walID : U64) (credits debits : Uint128) (flags : U8)
  | makeTransfer (walID fromID toID : U64) (amount : Uint128)
  | getAccount (accountID : U64)
  | countDatabase
  | updateAccount (walID accountID : U64) (flags : U8)
  | close
  deriving DecidableEq, Repr

def character (letter : Char) : U8 :=
  BitVec.ofNat 8 letter.toNat

namespace Request

/-- The line of a request, unless the printer of an integer panics. -/
def encode : Request → Option (List U8)
  | magic => some [character ';', character '\n']
  | addAccount walID credits debits flags => do
      let credits ← credits.bytes
      let debits ← debits.bytes
      return character '+' :: decimal walID.toNat ++ character ' ' :: credits ++
        character ' ' :: debits ++ character ' ' :: decimal flags.toNat ++ [character '\n']
  | makeTransfer walID fromID toID amount => do
      let amount ← amount.bytes
      return character '%' :: decimal walID.toNat ++ character ' ' :: decimal fromID.toNat ++
        character ' ' :: decimal toID.toNat ++ character ' ' :: amount ++ [character '\n']
  | getAccount accountID =>
      some (character '?' :: decimal accountID.toNat ++ [character '\n'])
  | countDatabase => some [character '#', character '\n']
  | updateAccount walID accountID flags =>
      some (character '=' :: decimal walID.toNat ++ character ' ' :: decimal accountID.toNat ++
        character ' ' :: decimal flags.toNat ++ [character '\n'])
  | close => some [character '.', character '\n']

/-- Set the sequence number of a request that has one; `none` for the types
that do not implement the interface `WalRequest`. -/
def setID (id : U64) : Request → Option Request
  | addAccount _ credits debits flags => some (.addAccount id credits debits flags)
  | makeTransfer _ fromID toID amount => some (.makeTransfer id fromID toID amount)
  | updateAccount _ accountID flags => some (.updateAccount id accountID flags)
  | magic | getAccount _ | countDatabase | close => none

end Request

end LetDX.LetDD
