import LetDX.LetDD.Supervisor
import LetDX.LetDD.Tcp.Response

/-! # Durations in the options of the proxy

`time.ParseDuration` computes whole numbers in 64 bits and fractions in binary64,
so that a fraction may be rounded up to the next nanosecond.
-/

namespace LetDX.LetDD

def isDigit (byte : U8) : Bool :=
  character '0' ≤ byte ∧ byte ≤ character '9'

def isPoint (byte : U8) : Bool :=
  byte = character '.'

/-- The nanoseconds of a unit. There are two signs for micro, in UTF-8. -/
def unitMap (unit : List U8) : Option U64 :=
  if unit = [character 'n', character 's'] then some 1
  else if unit = [character 'u', character 's'] then some 1000
  else if unit = [0xC2, 0xB5, character 's'] then some 1000
  else if unit = [0xCE, 0xBC, character 's'] then some 1000
  else if unit = [character 'm', character 's'] then some 1000000
  else if unit = [character 's'] then some 1000000000
  else if unit = [character 'm'] then some 60000000000
  else if unit = [character 'h'] then some 3600000000000
  else none

/-- `float64` of an unsigned integer -/
def toFloat (value : U64) : Float :=
  (UInt64.ofBitVec value).toFloat

/-- The digits in front, after the number `x`. Above 2^63 they are an error. -/
def leadingInt (x : U64) : List U8 → Option (U64 × List U8)
  | [] => some (x, [])
  | c :: rest =>
      if isDigit c then
        if x > 2 ^ 63 / 10 then none
        else
          let x := x * 10 + c.setWidth 64 - 0x30
          if x > 2 ^ 63 then none else leadingInt x rest
      else some (x, c :: rest)

/-- The digits behind a point, after the number `x`, and the power of ten that
divides them. Digits that are too many are dropped. -/
def leadingFraction (x : U64) (scale : Float) (overflow : Bool) :
    List U8 → U64 × Float × List U8
  | [] => (x, scale, [])
  | c :: rest =>
      if isDigit c then
        if overflow then leadingFraction x scale true rest
        else if x > (2 ^ 63 - 1) / 10 then leadingFraction x scale true rest
        else
          let y := x * 10 + c.setWidth 64 - 0x30
          if y > 2 ^ 63 then leadingFraction x scale true rest
          else leadingFraction y (scale * toFloat 10) false rest
      else (x, scale, c :: rest)

/-- One number with a unit, in nanoseconds, and what follows it. -/
def parseTerm (s : List U8) : Option (U64 × List U8) := do
  -- There is a digit or a point in front, for otherwise there is no digit at all.
  let (v, rest) ← leadingInt 0 s
  let pre := rest.length != s.length
  let (f, scale, post, rest) :=
    match rest with
    | [] => (0, toFloat 1, false, [])
    | c :: behind =>
        if isPoint c then
          let (f, scale, rest) := leadingFraction 0 (toFloat 1) false behind
          (f, scale, rest.length != behind.length, rest)
        else (0, toFloat 1, false, c :: behind)
  if !pre && !post then none
  else
    let (u, rest) := rest.span fun byte => !isPoint byte && !isDigit byte
    let unit ← unitMap u
    if v > 2 ^ 63 / unit then none
    else
      let v := v * unit
      if f > 0 then
        let v := v + (toFloat f * (toFloat unit / scale)).toUInt64.toBitVec
        if v > 2 ^ 63 then none else some (v, rest)
      else some (v, rest)

/-- A sum of terms, which may wrap. Each of the terms has at least one byte. -/
def parseTerms : Nat → U64 → List U8 → Option U64
  | _, d, [] => some d
  | 0, _, _ :: _ => none
  | terms + 1, d, s => do
      let (v, rest) ← parseTerm s
      let d := d + v
      if d > 2 ^ 63 then none else parseTerms terms d rest

/-- `time.ParseDuration` -/
def parseDuration (s : List U8) : Option Duration :=
  let (negative, rest) :=
    match s with
    | [] => (false, [])
    | c :: rest =>
        if c = character '-' then (true, rest)
        else if c = character '+' then (false, rest)
        else (false, c :: rest)
  if rest = [character '0'] then some 0
  else if rest = [] then none
  else do
    let d ← parseTerms rest.length 0 rest
    if negative then some (-d)
    else if d > 2 ^ 63 - 1 then none
    else some d

/-- A third of an hour in sixteen digits is rounded up to whole milliseconds. -/
example : parseDuration (text ("0.3333333333333333333h".toList)) = some 1200000000000 := by
  decide +kernel

/-- Just less than a nanosecond is one. -/
example : parseDuration (text ("0.999999999999999999ns".toList)) = some 1 := by
  decide +kernel

/-- Two terms of 2^63 nanoseconds are nothing. -/
example : parseDuration
    (text ("9223372036854775808ns9223372036854775808ns5s".toList)) = some 5000000000 := by
  decide +kernel

end LetDX.LetDD
