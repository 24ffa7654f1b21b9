import LetDX.LetDB.Cli

/-! # How exactly the numeric options are read

Every numeral in range is read as the number that it denotes. Much else is read
too: what follows the digits is never looked at, and a number that is negative
after the conversion is below every maximum.
-/

namespace LetDX.LetDB

open Bytes

/-! ## Runs of the parser -/

section Runs

variable {cli cli' : LetCli} {matched : Matched}

/-- Options that are accepted leave the rest to be parsed. -/
theorem cliParse_append {before : List Matched} (rest : List Matched)
    (hbefore : cliParse cli before = (.none, cli')) :
    cliParse cli (before ++ rest) = cliParse cli' rest := by
  induction before generalizing cli with
  | nil =>
      rw [cliParse] at hbefore
      rw [List.nil_append, (Prod.mk.inj hbefore).2]
  | cons matched before ih =>
      rw [cliParse] at hbefore
      rw [List.cons_append, cliParse]
      dsimp only at hbefore ⊢
      split at hbefore
      next hexists =>
        rw [(Prod.mk.inj hbefore).1] at hexists
        cases hexists
      next hnone =>
        rw [if_neg hnone]
        exact ih hbefore

theorem cliParse_cons {error : Error} (rest : List Matched)
    (hparse : cliParseOption cli matched = (error, cli')) :
    cliParse cli (matched :: rest) =
      if errorExists error then (error, cli') else cliParse cli' rest := by
  rw [cliParse, hparse]

end Runs

namespace NumericOption

/-- What `getopt_long` returns for the option. -/
def val : NumericOption → Nat
  | port => 'p'.toNat
  | backlog => 'b'.toNat
  | logLevel => 'l'.toNat
  | readTimeout | writeTimeout => 0

theorem val_of_name (option : NumericOption) : ∀ position : Fin cliOptions.length,
    (cliOptions.get position).name = option.name →
      (cliOptions.get position).val = option.val := by
  cases option <;> decide

theorem maximum_lt (option : NumericOption) : option.maximum < 2 ^ 32 := by
  cases option <;> decide

variable {option : NumericOption} {argument : CString} {matched : Matched}

theorem Delivers.option_eq (hdelivers : option.Delivers argument matched) :
    matched.option = option.val := by
  obtain ⟨_, position, hname, hoption, _⟩ := hdelivers
  rw [hoption, val_of_name option position hname]

theorem Delivers.name_eq (hdelivers : option.Delivers argument matched) (hlong : option.val = 0) :
    (cliOptions.get matched.index).name = option.name := by
  obtain ⟨_, position, hname, _, hindex⟩ := id hdelivers
  rw [hindex (hdelivers.option_eq.trans hlong), hname]

/-- The option takes the branch of its own. -/
theorem Delivers.parse_eq (hdelivers : option.Delivers argument matched) (cli : LetCli) :
    cliParseOption cli matched =
      cliParseNumber cli argument (BitVec.ofNat 64 option.maximum) option.error
        fun value => option.store cli value.toNat := by
  have hoption := hdelivers.option_eq
  have hname := hdelivers.name_eq
  obtain ⟨rfl, _⟩ := hdelivers
  cases option with
  | port => simp [cliParseOption, hoption, val, store, maximum, error, u16Max]
  | backlog => simp [cliParseOption, hoption, val, store, maximum, error, u16Max]
  | logLevel => simp [cliParseOption, hoption, val, store, maximum, error, logLevelNone]
  | readTimeout =>
      have hlong : matched.option = 0 := hoption
      have hread : (cliOptions.get matched.index).name = "read-timeout" := hname rfl
      rw [cliParseOption, if_pos hlong, if_pos hread]
      simp [store, maximum, error, u32Max]
  | writeTimeout =>
      have hlong : matched.option = 0 := hoption
      have hwrite : (cliOptions.get matched.index).name = "write-timeout" := hname rfl
      have hother : (cliOptions.get matched.index).name ≠ "read-timeout" := by
        rw [hwrite]
        decide
      rw [cliParseOption, if_pos hlong, if_neg hother, if_pos hwrite]
      simp [store, maximum, error, u32Max]

end NumericOption

/-! ## One conversion -/

section Conversion

variable {sign : Sign} {magnitude maximum : Nat} {argument : CString} {value : U64}

theorem toInt_ofNat_of_lt {number : Nat} (hnumber : number < 2 ^ 32) :
    (BitVec.ofNat 64 number).toInt = number := by
  rw [← BitVec.ofInt_natCast, BitVec.toInt_ofInt]
  exact Int.bmod_eq_of_le (by omega) (by omega)

/-- The integers that the comparison with a maximum lets pass. -/
theorem toInt_apply_le_iff (hsmall : magnitude < 2 ^ 64) (hmaximum : maximum < 2 ^ 32) :
    (BitVec.ofInt 64 (sign.apply magnitude)).toInt ≤ maximum ↔
      sign = .minus ∧ (magnitude ≤ 2 ^ 63 ∨ 2 ^ 64 - maximum ≤ magnitude) ∨
        sign ≠ .minus ∧ (magnitude ≤ maximum ∨ 2 ^ 63 ≤ magnitude) := by
  rw [BitVec.toInt_ofInt, Int.bmod_def]
  cases sign with
  | absent =>
      simp only [Sign.apply, reduceCtorEq, false_and, false_or, not_false_eq_true, true_and, ne_eq]
      omega
  | plus =>
      simp only [Sign.apply, reduceCtorEq, false_and, false_or, not_false_eq_true, true_and, ne_eq]
      omega
  | minus =>
      simp only [Sign.apply, true_and, ne_eq, not_true_eq_false, false_and, or_false]
      omega

theorem cliParseInteger_eq_some_iff (hmaximum : maximum < 2 ^ 32) :
    cliParseInteger argument (BitVec.ofNat 64 maximum) = some value ↔
      (scan argument.bytes).digits ≠ [] ∧ (scan argument.bytes).magnitude < 2 ^ 64 ∧
        value = BitVec.ofInt 64
          ((scan argument.bytes).sign.apply (scan argument.bytes).magnitude) ∧
        value.toInt ≤ maximum := by
  rw [cliParseInteger, Option.ite_none_left_eq_some, not_or, not_or, strtoul_consumed_eq_zero_iff,
    Option.some.injEq, BitVec.slt_eq_decide, decide_eq_true_iff, Int.not_lt,
    toInt_ofNat_of_lt hmaximum]
  by_cases hdigits : (scan argument.bytes).digits = []
  · exact iff_of_false (fun haccepted => haccepted.1.1 hdigits) fun hsome => hsome.1 hdigits
  rw [strtoul_outOfRange_iff hdigits, Nat.not_le]
  by_cases hsmall : (scan argument.bytes).magnitude < 2 ^ 64
  · rw [strtoul_value hdigits hsmall]
    constructor
    · rintro ⟨⟨_, _, hle⟩, rfl⟩
      exact ⟨hdigits, hsmall, rfl, hle⟩
    · rintro ⟨_, _, rfl, hle⟩
      exact ⟨⟨hdigits, hsmall, hle⟩, rfl⟩
  · exact iff_of_false (fun haccepted => hsmall haccepted.1.2.1) fun hsome => hsmall hsome.2.1

/-- A numeral in range is read exactly. -/
theorem cliParseInteger_of_numeral {signs : Bool} {number : Nat} (hmaximum : maximum < 2 ^ 32)
    (hnumeral : DecimalNumeral signs argument.bytes number) (hrange : number ≤ maximum) :
    cliParseInteger argument (BitVec.ofNat 64 maximum) = some (BitVec.ofNat 64 number) := by
  obtain ⟨hdigits, _, hnumber⟩ := decimalNumeral_iff.mp hnumeral
  have hsmall : (scan argument.bytes).magnitude < 2 ^ 64 := by
    cases hsign : (scan argument.bytes).sign <;> rw [hsign, Sign.apply] at hnumber <;> omega
  rw [cliParseInteger_eq_some_iff hmaximum, ← hnumber, BitVec.ofInt_natCast]
  refine ⟨hdigits, hsmall, rfl, ?_⟩
  rw [toInt_ofNat_of_lt (hrange.trans_lt hmaximum)]
  exact Int.ofNat_le.mpr hrange

end Conversion

/-! ## What is read besides -/

/-- A number is found that passes the check and is not what the whole string
denotes: it does not stand alone, it is negative, or it is from 2^63 on. -/
structure Misread (signs : Bool) (maximum : Nat) (scanned : Scanned) : Prop where
  digits : scanned.digits ≠ []
  small : scanned.magnitude < 2 ^ 64
  passes : ¬scanned.Alone signs ∧ scanned.magnitude ≤ maximum ∨
    scanned.sign = .minus ∧ 0 < scanned.magnitude ∧
      (scanned.magnitude ≤ 2 ^ 63 ∨ 2 ^ 64 - maximum ≤ scanned.magnitude) ∨
    scanned.sign ≠ .minus ∧ 2 ^ 63 ≤ scanned.magnitude

/-- Wherever it stands on a command line, the option is accepted with this
argument exactly if that is a numeral in range, and then its number is stored. -/
structure ReadsExactly (signs : Bool) (option : NumericOption) (argument : CString) : Prop where
  accepts : ∀ cli cli' before matched after number, cliParse cli before = (.none, cli') →
    option.Delivers argument matched → DecimalNumeral signs argument.bytes number →
    0 ≤ number → number ≤ option.maximum →
    cliParse cli (before ++ matched :: after) = cliParse (option.store cli' number.toNat) after
  refuses : ∀ cli cli' before matched after, cliParse cli before = (.none, cli') →
    option.Delivers argument matched →
    (∀ number, DecimalNumeral signs argument.bytes number → number < 0 ∨ option.maximum < number) →
    cliParse cli (before ++ matched :: after) = (.cli option.error, cli')

section Exactness

variable {signs : Bool} {maximum : Nat} {argument : CString}

/-- The whole string is no numeral in range. -/
theorem outside_iff : (∀ number, DecimalNumeral signs argument.bytes number →
      number < 0 ∨ maximum < number) ↔
    ((scan argument.bytes).digits ≠ [] → (scan argument.bytes).Alone signs →
      (scan argument.bytes).sign.apply (scan argument.bytes).magnitude < 0 ∨
        maximum < (scan argument.bytes).sign.apply (scan argument.bytes).magnitude) := by
  simp only [decimalNumeral_iff, and_imp]
  exact ⟨fun hnone hdigits halone => hnone _ hdigits halone rfl,
    fun hnone number hdigits halone hnumber => hnumber ▸ hnone hdigits halone⟩

theorem cliParseInteger_ne_none_iff (hmaximum : maximum < 2 ^ 32) :
    cliParseInteger argument (BitVec.ofNat 64 maximum) ≠ none ↔
      (scan argument.bytes).digits ≠ [] ∧ (scan argument.bytes).magnitude < 2 ^ 64 ∧
        (BitVec.ofInt 64
          ((scan argument.bytes).sign.apply (scan argument.bytes).magnitude)).toInt ≤ maximum := by
  rw [Option.ne_none_iff_exists']
  simp only [cliParseInteger_eq_some_iff hmaximum]
  constructor
  · rintro ⟨_, hdigits, hsmall, rfl, hle⟩
    exact ⟨hdigits, hsmall, hle⟩
  · rintro ⟨hdigits, hsmall, hle⟩
    exact ⟨_, hdigits, hsmall, rfl, hle⟩

namespace Misread

variable {scanned : Scanned}

theorem toInt_le (hmisread : Misread signs maximum scanned) (hmaximum : maximum < 2 ^ 32) :
    (BitVec.ofInt 64 (scanned.sign.apply scanned.magnitude)).toInt ≤ maximum := by
  refine (toInt_apply_le_iff hmisread.small hmaximum).mpr ?_
  by_cases hminus : scanned.sign = .minus
  · refine .inl ⟨hminus, ?_⟩
    rcases hmisread.passes with ⟨_, hle⟩ | ⟨_, _, hlarge⟩ | ⟨hother, _⟩
    · omega
    · exact hlarge
    · exact (hother hminus).elim
  · refine .inr ⟨hminus, ?_⟩
    rcases hmisread.passes with ⟨_, hle⟩ | ⟨hother, _⟩ | ⟨_, hlarge⟩
    · exact .inl hle
    · exact (hminus hother).elim
    · exact .inr hlarge

theorem outside (hmisread : Misread signs maximum scanned) (hmaximum : maximum < 2 ^ 32)
    (halone : scanned.Alone signs) :
    scanned.sign.apply scanned.magnitude < 0 ∨
      maximum < scanned.sign.apply scanned.magnitude := by
  rcases hmisread.passes with ⟨hnot, _⟩ | ⟨hminus, hpositive, _⟩ | ⟨hother, hlarge⟩
  · exact (hnot halone).elim
  · rw [hminus, Sign.apply]
    omega
  · rw [Sign.apply_of_ne hother]
    omega

/-- What passes the check and is not in range has been misread. -/
theorem of_passes (hmaximum : maximum < 2 ^ 32) (hdigits : scanned.digits ≠ [])
    (hsmall : scanned.magnitude < 2 ^ 64)
    (hle : (BitVec.ofInt 64 (scanned.sign.apply scanned.magnitude)).toInt ≤ maximum)
    (houtside : scanned.Alone signs → scanned.sign.apply scanned.magnitude < 0 ∨
      maximum < scanned.sign.apply scanned.magnitude) : Misread signs maximum scanned := by
  refine ⟨hdigits, hsmall, ?_⟩
  rcases (toInt_apply_le_iff hsmall hmaximum).mp hle with ⟨hminus, hlarge⟩ | ⟨hother, hlarge⟩
  · by_cases hzero : scanned.magnitude = 0
    · refine .inl ⟨fun halone => ?_, by omega⟩
      have hnumber := houtside halone
      rw [hminus, Sign.apply] at hnumber
      omega
    · exact .inr (.inl ⟨hminus, Nat.pos_of_ne_zero hzero, hlarge⟩)
  · rcases hlarge with hle | hlarge
    · refine .inl ⟨fun halone => ?_, hle⟩
      have hnumber := houtside halone
      rw [Sign.apply_of_ne hother] at hnumber
      omega
    · exact .inr (.inr ⟨hother, hlarge⟩)

end Misread

theorem misread_iff (hmaximum : maximum < 2 ^ 32) : Misread signs maximum (scan argument.bytes) ↔
    cliParseInteger argument (BitVec.ofNat 64 maximum) ≠ none ∧
      ∀ number, DecimalNumeral signs argument.bytes number → number < 0 ∨ maximum < number := by
  rw [outside_iff, cliParseInteger_ne_none_iff hmaximum]
  constructor
  · intro hmisread
    exact ⟨⟨hmisread.digits, hmisread.small, hmisread.toInt_le hmaximum⟩,
      fun _ => hmisread.outside hmaximum⟩
  · rintro ⟨⟨hdigits, hsmall, hle⟩, houtside⟩
    exact .of_passes hmaximum hdigits hsmall hle (houtside hdigits)

variable {option : NumericOption} {matched : Matched} {cli cli' : LetCli} {before : List Matched}

theorem cliParse_of_none (after : List Matched) (hbefore : cliParse cli before = (.none, cli'))
    (hdelivers : option.Delivers argument matched)
    (hrefused : cliParseInteger argument (BitVec.ofNat 64 option.maximum) = none) :
    cliParse cli (before ++ matched :: after) = (.cli option.error, cli') := by
  have hparse := hdelivers.parse_eq cli'
  rw [cliParseNumber, hrefused] at hparse
  rw [cliParse_append _ hbefore, cliParse_cons after hparse]
  rfl

theorem cliParse_of_some {value : U64} (after : List Matched)
    (hbefore : cliParse cli before = (.none, cli')) (hdelivers : option.Delivers argument matched)
    (haccepted : cliParseInteger argument (BitVec.ofNat 64 option.maximum) = some value) :
    cliParse cli (before ++ matched :: after) =
      cliParse (option.store cli' value.toNat) after := by
  have hparse := hdelivers.parse_eq cli'
  rw [cliParseNumber, haccepted] at hparse
  rw [cliParse_append _ hbefore, cliParse_cons after hparse]
  rfl

theorem NumericOption.exists_position (option : NumericOption) :
    ∃ position : Fin cliOptions.length, (cliOptions.get position).name = option.name ∧
      (cliOptions.get position).val = option.val := by
  cases option <;> decide

theorem NumericOption.exists_delivers (option : NumericOption) (argument : CString) :
    ∃ matched, option.Delivers argument matched := by
  obtain ⟨position, hname, hval⟩ := option.exists_position
  exact ⟨⟨option.val, position, argument⟩, rfl, position, hname, hval.symm, fun _ => rfl⟩

/-- A numeric option is read exactly unless its argument is misread. -/
theorem readsExactly_iff (signs : Bool) (option : NumericOption) (argument : CString) :
    ReadsExactly signs option argument ↔
      ¬Misread signs option.maximum (scan argument.bytes) := by
  rw [misread_iff option.maximum_lt]
  constructor
  · rintro hexact ⟨hpasses, hnone⟩
    obtain ⟨value, haccepted⟩ := Option.ne_none_iff_exists'.mp hpasses
    obtain ⟨matched, hdelivers⟩ := option.exists_delivers argument
    have hrefused := hexact.refuses letCliEmpty _ [] _ [] rfl hdelivers hnone
    rw [cliParse_of_some [] rfl hdelivers haccepted] at hrefused
    cases hrefused
  · intro hread
    refine ⟨?_, ?_⟩
    · intro cli cli' before matched after number hbefore hdelivers hnumeral hpositive hrange
      obtain ⟨number, rfl⟩ := Int.eq_ofNat_of_zero_le hpositive
      have hrange' : number ≤ option.maximum := Int.ofNat_le.mp hrange
      have hsmall := option.maximum_lt
      have haccepted := cliParseInteger_of_numeral option.maximum_lt hnumeral hrange'
      rw [cliParse_of_some after hbefore hdelivers haccepted, BitVec.toNat_ofNat,
        Nat.mod_eq_of_lt (by omega)]
      rfl
    · intro cli cli' before matched after hbefore hdelivers hnone
      have hrefused : cliParseInteger argument (BitVec.ofNat 64 option.maximum) = none := by
        by_contra hpasses
        exact hread ⟨hpasses, hnone⟩
      exact cliParse_of_none after hbefore hdelivers hrefused

theorem zero_notMem_minusOne : 0 ∉ ([0x2D, 0x31] : List U8) := by
  decide

/-- The argument `-1`. -/
def minusOne : CString :=
  ⟨[0x2D, 0x31], zero_notMem_minusOne⟩

/-- The port minus one is the greatest one, whether signs count or not. -/
theorem minusOne_misread :
    (∀ signs, ¬ReadsExactly signs .port minusOne) ∧
      cliParse letCliEmpty [⟨'p'.toNat, ⟨2, by decide⟩, minusOne⟩] =
        (.none, { letCliEmpty with port := 65535 }) := by
  refine ⟨fun signs hexact => ?_, by decide⟩
  have hmisread : Misread signs 65535 (scan minusOne.bytes) :=
    ⟨by decide, by decide, .inr (.inl ⟨rfl, by decide, .inl (by decide)⟩)⟩
  have hnone := ((misread_iff (by decide)).mp hmisread).2
  have hrefused := hexact.refuses letCliEmpty letCliEmpty [] ⟨'p'.toNat, ⟨2, by decide⟩, minusOne⟩
    [] rfl ⟨rfl, ⟨2, by decide⟩, rfl, rfl, fun _ => rfl⟩ hnone
  exact absurd hrefused (by decide)

end Exactness

end LetDX.LetDB
