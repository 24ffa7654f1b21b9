import LetDX.LetDD.Config.Duration

/-! # Parsing the options of the proxy

Strings are their bytes. A parser returns a value or an error, or it panics
when it indexes past the parts that it has split its input into.
-/

namespace LetDX.LetDD

/-- `strconv.Atoi` for integers of 64 bits. -/
def atoi (input : List U8) : Option Int :=
  (setString input 10).filter fun value => -2 ^ 63 ≤ value ∧ value < 2 ^ 63

/-! ## The options -/

inductive ParserError
  | format (expected : String)
  | invalid (name : String) (part : List U8)
  deriving DecidableEq, Repr

/-- A value or an error, or nothing after a panic. -/
abbrev Parsing := ExceptT ParserError Option

/-- The configuration of the rate limiter, without its rate, which is a
floating-point number that nothing else depends on. -/
structure RateLimiterMemoryStoreConfig where
  burst : Int := 0
  expiresIn : Duration := 0
  deriving DecidableEq, Repr

namespace Parsing

def panic {α : Type} : Parsing α :=
  ExceptT.mk none

def index (parts : List (List U8)) (position : Nat) : Parsing (List U8) :=
  match parts[position]? with
  | some part => return part
  | none => panic

/-- A part that is of its kind and positive. -/
def positive {α : Type} (name : String) (parse : List U8 → Option α) (isPositive : α → Bool)
    (part : List U8) : Parsing α :=
  match (parse part).filter isPositive with
  | some value => return value
  | none => throw (.invalid name part)

def positiveInteger (name : String) : List U8 → Parsing Int :=
  positive name atoi fun value => 0 < value

def positiveCount (name : String) : List U8 → Parsing U64 :=
  positive name (fun part => parseUint part 10 64) fun value => 0 < value

def positiveDuration (name : String) : List U8 → Parsing Duration :=
  positive name parseDuration fun value => (0 : Duration).slt value

end Parsing

open Parsing

/-- `ParseRateLimiter` -/
def parseRateLimiter (input : List U8) : Parsing RateLimiterMemoryStoreConfig := do
  if input = [] then return {}
  else
    let parts := input.splitOn (character '/')
    if parts.length < 2 ∨ parts.length > 4 then
      throw (.format "<requests>/<window>[/<burst>][/<expires>]")
    else
      let requests ← positiveInteger "requests value" (← index parts 0)
      let window ← positiveDuration "time window" (← index parts 1)
      -- A burst is not read when an expiration follows it.
      let burst ← (if parts.length = 3 then index parts 2 >>= positiveInteger "burst value"
        else pure requests)
      let expiresIn ← (if parts.length = 4 then index parts 3 >>= fun part =>
          if part = [] then pure (window * 3) else positiveDuration "expires value" part
        else pure (window * 3))
      return { burst, expiresIn }

/-- `ParseSupervisor` -/
def parseSupervisor (input : List U8) : Parsing Supervisor := do
  if input = [] then return newSupervisor 0 0 0
  else
    let parts := input.splitOn (character '/')
    if parts.length < 2 ∨ parts.length > 3 then
      throw (.format "<attempt>/<maximum>/<minimum>")
    else
      let attempt ← positiveCount "attempt value" (← index parts 0)
      let maximum ← positiveDuration "maximum value" (← index parts 1)
      let minimum ← positiveDuration "minimum value" (← index parts 2)
      return newSupervisor attempt maximum minimum

/-! ## Panics -/

namespace Parsing

variable {α β : Type}

/-- The parser returns, with a value or an error. -/
def Returns (parsing : Parsing α) : Prop :=
  parsing.run ≠ none

theorem Returns.pure (value : α) : Returns (pure value : Parsing α) :=
  fun hnone => nomatch hnone

theorem Returns.throw (error : ParserError) : Returns (throw error : Parsing α) :=
  fun hnone => nomatch hnone

theorem Returns.bind {parsing : Parsing α} {next : α → Parsing β} (hreturns : Returns parsing)
    (hnext : ∀ value, Returns (next value)) : Returns (parsing >>= next) := by
  intro hnone
  rw [ExceptT.run_bind] at hnone
  cases hrun : parsing.run with
  | none => exact hreturns hrun
  | some parsed =>
      rw [hrun] at hnone
      cases parsed with
      | ok value => exact hnext value hnone
      | error error => nomatch hnone

theorem Returns.index {parts : List (List U8)} {position : Nat}
    (hposition : position < parts.length) :
    Returns (index parts position) := by
  rw [Parsing.index, List.getElem?_eq_getElem hposition]
  exact .pure _

theorem Returns.positive (name : String) (parse : List U8 → Option α) (isPositive : α → Bool)
    (part : List U8) : Returns (positive name parse isPositive part) := by
  unfold Parsing.positive
  split
  · exact .pure _
  · exact .throw _

end Parsing

/-- Every part that is read is one of those there are. -/
theorem parseRateLimiter_returns (input : List U8) : Returns (parseRateLimiter input) := by
  unfold parseRateLimiter
  split
  · exact .pure _
  · dsimp only
    split
    · exact .throw _
    next hlength =>
      have hinteger (name : String) (part : List U8) : Returns (positiveInteger name part) :=
        .positive name atoi _ part
      have hduration (name : String) (part : List U8) : Returns (positiveDuration name part) :=
        .positive name parseDuration _ part
      refine .bind (.index (by omega)) fun requests => .bind (hinteger _ _) fun requests => ?_
      refine .bind (.index (by omega)) fun window => .bind (hduration _ _) fun window => ?_
      refine .bind ?_ fun burst => .bind ?_ fun expiresIn => .pure _
      · split
        · exact .bind (.index (by omega)) (hinteger _)
        · exact .pure _
      · split
        · refine .bind (.index (by omega)) fun part => ?_
          split
          · exact .pure _
          · exact hduration _ _
        · exact .pure _

end LetDX.LetDD
