import LetDX.LetDD.Config.Results

/-! # The option of the rate limiter

Which strings are accepted, and how that differs from the documented form: a
burst in front of an expiration is dropped, and the default expiration may wrap.
-/

namespace LetDX.LetDD

open Parsing

/-! ## What is accepted -/

/-- The configuration that is read from these parts. -/
inductive RateLimiterParts : List (List U8) → RateLimiterMemoryStoreConfig → Prop
  | two {first second : List U8} {requests : Int} {window : Duration}
      (hrequests : PositiveInteger first requests) (hwindow : PositiveDuration second window) :
      RateLimiterParts [first, second] { burst := requests, expiresIn := window * 3 }
  | three {first second third : List U8} {requests burst : Int} {window : Duration}
      (hrequests : PositiveInteger first requests) (hwindow : PositiveDuration second window)
      (hburst : PositiveInteger third burst) :
      RateLimiterParts [first, second, third] { burst, expiresIn := window * 3 }
  | fourDefault {first second third : List U8} {requests : Int} {window : Duration}
      (hrequests : PositiveInteger first requests) (hwindow : PositiveDuration second window) :
      RateLimiterParts [first, second, third, []] { burst := requests, expiresIn := window * 3 }
  | four {first second third fourth : List U8} {requests : Int} {window expiresIn : Duration}
      (hrequests : PositiveInteger first requests) (hwindow : PositiveDuration second window)
      (hfourth : fourth ≠ []) (hexpires : PositiveDuration fourth expiresIn) :
      RateLimiterParts [first, second, third, fourth] { burst := requests, expiresIn }

theorem parseRateLimiter_gives_iff {input : List U8} {config : RateLimiterMemoryStoreConfig}
    (hinput : input ≠ []) : Gives (parseRateLimiter input) config ↔
      RateLimiterParts (input.splitOn (character '/')) config := by
  rw [parseRateLimiter, if_neg hinput]
  generalize input.splitOn (character '/') = parts
  dsimp only
  split
  next hlength =>
    refine ⟨fun hgives => (not_gives_throw _ _ hgives).elim, fun hparts => ?_⟩
    cases hparts <;> simp at hlength
  next hlength =>
    simp only [gives_bind_iff, gives_index_iff, gives_positiveInteger_iff,
      gives_positiveDuration_iff, gives_pure_iff, gives_ite_iff]
    rcases parts with _ | ⟨first, _ | ⟨second, _ | ⟨third, _ | ⟨fourth, _ | ⟨fifth, rest⟩⟩⟩⟩⟩ <;>
      simp only [List.getElem?_cons_zero, List.getElem?_cons_succ, Option.some.injEq,
        exists_eq_left', List.length_cons, List.length_nil, Nat.reduceAdd, Nat.reduceEqDiff,
        if_true, if_false]
    · exact (hlength (.inl (by decide))).elim
    · exact (hlength (.inl (Nat.lt_succ_self 1))).elim
    · constructor
      · rintro ⟨requests, hrequests, window, hwindow, rfl⟩
        exact .two hrequests hwindow
      · intro hparts
        cases hparts with
        | two hrequests hwindow => exact ⟨_, hrequests, _, hwindow, rfl⟩
    · constructor
      · rintro ⟨requests, hrequests, window, hwindow, burst, hburst, rfl⟩
        exact .three hrequests hwindow hburst
      · intro hparts
        cases hparts with
        | three hrequests hwindow hburst => exact ⟨_, hrequests, _, hwindow, _, hburst, rfl⟩
    · constructor
      · rintro ⟨requests, hrequests, window, hwindow, expiresIn, hexpires, rfl⟩
        split at hexpires
        next hfourth => exact hfourth ▸ hexpires ▸ .fourDefault hrequests hwindow
        next hfourth => exact .four hrequests hwindow hfourth hexpires
      · intro hparts
        cases hparts with
        | fourDefault hrequests hwindow => exact ⟨_, hrequests, _, hwindow, _, rfl, rfl⟩
        | four hrequests hwindow hfourth hexpires =>
            refine ⟨_, hrequests, _, hwindow, _, ?_, rfl⟩
            rwa [if_neg hfourth]
    · simp only [List.length_cons] at hlength
      omega

theorem error_of_not_gives {input : List U8}
    (hnone : ∀ config, ¬Gives (parseRateLimiter input) config) :
    ∃ error, (parseRateLimiter input).run = some (.error error) := by
  cases hrun : (parseRateLimiter input).run with
  | none => exact (parseRateLimiter_returns input hrun).elim
  | some parsed =>
      cases parsed with
      | ok config => exact (hnone config hrun).elim
      | error error => exact ⟨error, rfl⟩

/-! ## The documented form -/

/-- A part of the kind of its position: requests, window, burst, expiration. -/
def OfKind (position : Nat) (part : List U8) : Prop :=
  if position % 2 = 0 then ∃ value, PositiveInteger part value
  else ∃ value, PositiveDuration part value

/-- What the documented form promises for an input. -/
structure ParsedAsDocumented (input : List U8) : Prop where
  complete : ∀ first second rest requests window,
    input.splitOn (character '/') = first :: second :: rest → rest.length ≤ 2 →
    PositiveInteger first requests → PositiveDuration second window →
    (∀ third, rest[0]? = some third → OfKind 2 third) →
    (∀ fourth, rest[1]? = some fourth → OfKind 3 fourth) →
    (rest.length < 2 → 3 * window.toInt < 2 ^ 63) →
    ∃ config, Gives (parseRateLimiter input) config ∧
      (rest = [] → config.burst = requests) ∧
      (∀ third, rest[0]? = some third → PositiveInteger third config.burst) ∧
      (rest.length < 2 → config.expiresIn.toInt = 3 * window.toInt) ∧
      ∀ fourth, rest[1]? = some fourth → PositiveDuration fourth config.expiresIn
  rejects : input ≠ [] →
    ((input.splitOn (character '/')).length < 2 ∨ 4 < (input.splitOn (character '/')).length ∨
      ∃ position part, (input.splitOn (character '/'))[position]? = some part ∧ part ≠ [] ∧
        ¬OfKind position part) →
    ∃ error, (parseRateLimiter input).run = some (.error error)
  positive : input ≠ [] → ∀ config, Gives (parseRateLimiter input) config →
    0 < config.burst ∧ 0 < config.expiresIn.toInt

/-- The first two parts are valid, and the third of four is not empty and neither
invalid nor different from the requests without consequence. -/
def BurstDropped (parts : List (List U8)) : Prop :=
  ∃ first second third fourth requests window, parts = [first, second, third, fourth] ∧
    PositiveInteger first requests ∧ PositiveDuration second window ∧
    ((fourth = [] ∨ OfKind 3 fourth) ∧ third ≠ [] ∧ ¬OfKind 2 third ∨
      OfKind 3 fourth ∧ ∃ burst, PositiveInteger third burst ∧ burst ≠ requests)

/-- No expiration is given, the other parts that are read are valid, and three
windows make a negative integer of 64 bits. -/
def ExpirationWrapped (parts : List (List U8)) : Prop :=
  ∃ first second rest requests window, parts = first :: second :: rest ∧
    PositiveInteger first requests ∧ PositiveDuration second window ∧
    (rest = [] ∨ (∃ third, rest = [third] ∧ OfKind 2 third) ∨ ∃ third, rest = [third, []]) ∧
    2 ^ 63 ≤ 3 * window.toInt ∧ 3 * window.toInt < 2 ^ 64

theorem toInt_tripled {window : Duration} (hwindow : 0 < window.toInt)
    (hfits : 3 * window.toInt < 2 ^ 63) : (window * 3).toInt = 3 * window.toInt := by
  have hthree : (3 : Duration).toInt = 3 := by decide
  rw [BitVec.toInt_mul, hthree, Int.mul_comm]
  exact Int.bmod_eq_of_le (by omega) (by omega)

theorem toInt_tripled_of_ge {window : Duration} (hlarge : 2 ^ 63 ≤ 3 * window.toInt) :
    (window * 3).toInt = 3 * window.toInt - 2 ^ 64 := by
  have hthree : (3 : Duration).toInt = 3 := by decide
  have hlt : window.toInt < 2 ^ 63 := BitVec.toInt_lt
  rw [BitVec.toInt_mul, hthree, Int.mul_comm, ← Int.sub_bmod_right]
  exact Int.bmod_eq_of_le (by omega) (by omega)

/-- Three windows are negative when only the highest bit has been overrun. -/
theorem tripled_pos_iff {window : Duration} (hwindow : 0 < window.toInt) :
    0 < (window * 3).toInt ↔ ¬(2 ^ 63 ≤ 3 * window.toInt ∧ 3 * window.toInt < 2 ^ 64) := by
  by_cases hfits : 3 * window.toInt < 2 ^ 63
  · rw [toInt_tripled hwindow hfits]
    omega
  · rw [toInt_tripled_of_ge (Int.not_lt.mp hfits)]
    omega

theorem PositiveInteger.eq {part : List U8} {value value' : Int}
    (hvalue : PositiveInteger part value) (hvalue' : PositiveInteger part value') :
    value = value' :=
  Option.some.inj (hvalue.1.symm.trans hvalue'.1)

theorem PositiveDuration.ne_nil {part : List U8} {value : Duration}
    (hvalue : PositiveDuration part value) : part ≠ [] := by
  rintro rfl
  cases hvalue.1

/-- Only a string that is not empty has several parts. -/
theorem ne_nil_of_parts {input first second : List U8} {rest : List (List U8)}
    (hparts : input.splitOn (character '/') = first :: second :: rest) : input ≠ [] := by
  rintro rfl
  cases hparts

theorem eq_of_getElem?_singleton {α : Type} {only element : α} {position : Nat}
    (helement : [only][position]? = some element) : position = 0 ∧ only = element := by
  cases position with
  | zero => exact ⟨rfl, Option.some.inj helement⟩
  | succ position => cases helement

/-- With valid requests and a valid window, an invalid part is one that follows them. -/
theorem invalid_follows {first second part : List U8} {rest : List (List U8)} {requests : Int}
    {window : Duration} {position : Nat} (hrequests : PositiveInteger first requests)
    (hwindow : PositiveDuration second window)
    (hpart : (first :: second :: rest)[position]? = some part)
    (hinvalid : ¬OfKind position part) :
    ∃ later, position = later + 2 ∧ rest[later]? = some part := by
  cases position with
  | zero =>
      obtain rfl := Option.some.inj hpart
      exact (hinvalid ⟨requests, hrequests⟩).elim
  | succ position =>
      cases position with
      | zero =>
          obtain rfl := Option.some.inj hpart
          exact (hinvalid ⟨window, hwindow⟩).elim
      | succ later => exact ⟨later, rfl, hpart⟩

section Accepted

variable {parts : List (List U8)} {config : RateLimiterMemoryStoreConfig}

/-- The only invalid part of an accepted string is a burst that was dropped. -/
theorem burstDropped_of_invalid (haccepted : RateLimiterParts parts config) {position : Nat}
    {part : List U8} (hpart : parts[position]? = some part) (hnonempty : part ≠ [])
    (hinvalid : ¬OfKind position part) : BurstDropped parts := by
  cases haccepted with
  | two hrequests hwindow =>
      obtain ⟨later, rfl, hlater⟩ := invalid_follows hrequests hwindow hpart hinvalid
      cases hlater
  | three hrequests hwindow hburst =>
      obtain ⟨later, rfl, hlater⟩ := invalid_follows hrequests hwindow hpart hinvalid
      obtain ⟨rfl, rfl⟩ := eq_of_getElem?_singleton hlater
      exact (hinvalid ⟨_, hburst⟩).elim
  | fourDefault hrequests hwindow =>
      obtain ⟨later, rfl, hlater⟩ := invalid_follows hrequests hwindow hpart hinvalid
      cases later with
      | zero =>
          obtain rfl := Option.some.inj hlater
          exact ⟨_, _, _, _, _, _, rfl, hrequests, hwindow, .inl ⟨.inl rfl, hnonempty, hinvalid⟩⟩
      | succ later =>
          obtain ⟨rfl, rfl⟩ := eq_of_getElem?_singleton hlater
          exact (hnonempty rfl).elim
  | four hrequests hwindow hfourth hexpires =>
      obtain ⟨later, rfl, hlater⟩ := invalid_follows hrequests hwindow hpart hinvalid
      cases later with
      | zero =>
          obtain rfl := Option.some.inj hlater
          exact ⟨_, _, _, _, _, _, rfl, hrequests, hwindow,
            .inl ⟨.inr ⟨_, hexpires⟩, hnonempty, hinvalid⟩⟩
      | succ later =>
          obtain ⟨rfl, rfl⟩ := eq_of_getElem?_singleton hlater
          exact (hinvalid ⟨_, hexpires⟩).elim

theorem burst_pos (haccepted : RateLimiterParts parts config) : 0 < config.burst := by
  cases haccepted with
  | two hrequests => exact hrequests.2
  | three _ _ hburst => exact hburst.2
  | fourDefault hrequests => exact hrequests.2
  | four hrequests => exact hrequests.2

theorem expiresIn_pos (haccepted : RateLimiterParts parts config)
    (hfits : ¬ExpirationWrapped parts) : 0 < config.expiresIn.toInt := by
  cases haccepted with
  | two hrequests hwindow =>
      exact (tripled_pos_iff hwindow.2).mpr fun hwrapped =>
        hfits ⟨_, _, _, _, _, rfl, hrequests, hwindow, .inl rfl, hwrapped⟩
  | three hrequests hwindow hburst =>
      exact (tripled_pos_iff hwindow.2).mpr fun hwrapped =>
        hfits ⟨_, _, _, _, _, rfl, hrequests, hwindow, .inr (.inl ⟨_, rfl, _, hburst⟩), hwrapped⟩
  | fourDefault hrequests hwindow =>
      exact (tripled_pos_iff hwindow.2).mpr fun hwrapped =>
        hfits ⟨_, _, _, _, _, rfl, hrequests, hwindow, .inr (.inr ⟨_, rfl⟩), hwrapped⟩
  | four _ _ _ hexpires => exact hexpires.2

theorem length_parts (haccepted : RateLimiterParts parts config) :
    2 ≤ parts.length ∧ parts.length ≤ 4 := by
  cases haccepted <;> exact ⟨by simp, by simp⟩

end Accepted

/-- With no expiration the string is accepted and three windows are taken. -/
theorem exists_default {first second : List U8} {rest : List (List U8)} {requests : Int}
    {window : Duration} (hrequests : PositiveInteger first requests)
    (hwindow : PositiveDuration second window)
    (hrest : rest = [] ∨ (∃ third, rest = [third] ∧ OfKind 2 third) ∨ ∃ third, rest = [third, []]) :
    ∃ burst, RateLimiterParts (first :: second :: rest) { burst, expiresIn := window * 3 } := by
  rcases hrest with rfl | ⟨third, rfl, burst, hburst⟩ | ⟨third, rfl⟩
  · exact ⟨requests, .two hrequests hwindow⟩
  · exact ⟨burst, .three hrequests hwindow hburst⟩
  · exact ⟨requests, .fourDefault hrequests hwindow⟩

/-- With four parts the requests are the burst, and the third part is not read. -/
theorem exists_four (third : List U8) {first second fourth : List U8} {requests : Int}
    {window : Duration} (hrequests : PositiveInteger first requests)
    (hwindow : PositiveDuration second window) (hfourth : fourth = [] ∨ OfKind 3 fourth) :
    ∃ expiresIn,
      RateLimiterParts [first, second, third, fourth] { burst := requests, expiresIn } := by
  rcases hfourth with rfl | ⟨expiresIn, hexpires⟩
  · exact ⟨_, .fourDefault hrequests hwindow⟩
  · exact ⟨expiresIn, .four hrequests hwindow hexpires.ne_nil hexpires⟩

/-- A string of the documented form is accepted, with the values of its parts
unless its burst is dropped. -/
theorem accepted_of_documented {first second : List U8} {rest : List (List U8)} {requests : Int}
    {window : Duration} (hkept : ¬BurstDropped (first :: second :: rest))
    (hlength : rest.length ≤ 2) (hrequests : PositiveInteger first requests)
    (hwindow : PositiveDuration second window)
    (hthird : ∀ third, rest[0]? = some third → OfKind 2 third)
    (hfourth : ∀ fourth, rest[1]? = some fourth → OfKind 3 fourth) :
    ∃ config, RateLimiterParts (first :: second :: rest) config ∧
      (rest = [] → config.burst = requests) ∧
      (∀ third, rest[0]? = some third → PositiveInteger third config.burst) ∧
      (rest.length < 2 → config.expiresIn = window * 3) ∧
      ∀ fourth, rest[1]? = some fourth → PositiveDuration fourth config.expiresIn := by
  rcases rest with _ | ⟨third, _ | ⟨fourth, _ | ⟨fifth, rest⟩⟩⟩
  · refine ⟨_, .two hrequests hwindow, fun _ => rfl, ?_, fun _ => rfl, ?_⟩
    · intro third hnone
      cases hnone
    · intro fourth hnone
      cases hnone
  · obtain ⟨burst, hburst⟩ := hthird third rfl
    refine ⟨_, .three hrequests hwindow hburst, ?_, ?_, fun _ => rfl, ?_⟩
    · intro hnil
      cases hnil
    · intro part hpart
      obtain rfl := Option.some.inj hpart
      exact hburst
    · intro fourth hnone
      cases hnone
  · obtain ⟨burst, hburst⟩ := hthird third rfl
    obtain ⟨expiresIn, hexpires⟩ := hfourth fourth rfl
    have hsame : burst = requests := by
      by_contra hother
      exact hkept ⟨first, second, third, fourth, requests, window, rfl, hrequests, hwindow,
        .inr ⟨⟨expiresIn, hexpires⟩, burst, hburst, hother⟩⟩
    refine ⟨_, .four hrequests hwindow hexpires.ne_nil hexpires, ?_, ?_, ?_, ?_⟩
    · intro hnil
      cases hnil
    · intro part hpart
      obtain rfl := Option.some.inj hpart
      exact hsame ▸ hburst
    · intro hshort
      cases Nat.lt_irrefl 2 hshort
    · intro part hpart
      obtain rfl := Option.some.inj hpart
      exact hexpires
  · simp only [List.length_cons] at hlength
    omega

namespace ParsedAsDocumented

variable {input : List U8}

theorem not_burstDropped (hdocumented : ParsedAsDocumented input) :
    ¬BurstDropped (input.splitOn (character '/')) := by
  rintro ⟨first, second, third, fourth, requests, window, hparts, hrequests, hwindow, hdropped⟩
  have hinput := ne_nil_of_parts hparts
  have hfourth : fourth = [] ∨ OfKind 3 fourth :=
    hdropped.elim (fun hinvalid => hinvalid.1) fun hother => .inr hother.1
  obtain ⟨expiresIn, haccepted⟩ := exists_four third hrequests hwindow hfourth
  rw [← hparts, ← parseRateLimiter_gives_iff hinput] at haccepted
  rcases hdropped with ⟨_, hthird, hinvalid⟩ | ⟨hexpires, burst, hburst, hother⟩
  -- An invalid burst is accepted.
  · have hbad : (input.splitOn (character '/'))[2]? = some third := by
      rw [hparts]
      rfl
    obtain ⟨error, herror⟩ :=
      hdocumented.rejects hinput (.inr (.inr ⟨2, third, hbad, hthird, hinvalid⟩))
    cases haccepted.symm.trans herror
  -- A valid one is replaced by the requests.
  · obtain ⟨config, hgives, _, hkept, _⟩ := hdocumented.complete first second [third, fourth]
      requests window hparts (Nat.le_refl 2) hrequests hwindow
      (fun part hpart => Option.some.inj hpart ▸ ⟨burst, hburst⟩)
      (fun part hpart => Option.some.inj hpart ▸ hexpires)
      fun hshort => (Nat.lt_irrefl 2 hshort).elim
    rw [hgives.eq haccepted] at hkept
    exact hother (hburst.eq (hkept third rfl))

theorem not_expirationWrapped (hdocumented : ParsedAsDocumented input) :
    ¬ExpirationWrapped (input.splitOn (character '/')) := by
  rintro ⟨first, second, rest, requests, window, hparts, hrequests, hwindow, hdefault, hwrapped⟩
  have hinput := ne_nil_of_parts hparts
  obtain ⟨burst, haccepted⟩ := exists_default hrequests hwindow hdefault
  rw [← hparts, ← parseRateLimiter_gives_iff hinput] at haccepted
  exact (tripled_pos_iff hwindow.2).mp (hdocumented.positive hinput _ haccepted).2 hwrapped

end ParsedAsDocumented

/-- A string is parsed as documented unless its burst is dropped or its default
expiration wraps. -/
theorem parsedAsDocumented_iff (input : List U8) :
    ParsedAsDocumented input ↔ ¬BurstDropped (input.splitOn (character '/')) ∧
      ¬ExpirationWrapped (input.splitOn (character '/')) := by
  constructor
  · intro hdocumented
    exact ⟨hdocumented.not_burstDropped, hdocumented.not_expirationWrapped⟩
  · rintro ⟨hkept, hfits⟩
    refine ⟨?_, ?_, ?_⟩
    · intro first second rest requests window hparts hlength hrequests hwindow hthird hfourth hsmall
      rw [hparts] at hkept
      obtain ⟨config, haccepted, hburst, hburst', hdefault, hexpires⟩ :=
        accepted_of_documented hkept hlength hrequests hwindow hthird hfourth
      rw [← hparts, ← parseRateLimiter_gives_iff (ne_nil_of_parts hparts)] at haccepted
      refine ⟨config, haccepted, hburst, hburst', ?_, hexpires⟩
      intro hshort
      rw [hdefault hshort, toInt_tripled hwindow.2 (hsmall hshort)]
    · intro hinput hbad
      refine error_of_not_gives fun config hgives => ?_
      have haccepted := (parseRateLimiter_gives_iff hinput).mp hgives
      have hlength := length_parts haccepted
      rcases hbad with hfew | hmany | ⟨position, part, hpart, hnonempty, hinvalid⟩
      · omega
      · omega
      · exact hkept (burstDropped_of_invalid haccepted hpart hnonempty hinvalid)
    · intro hinput config hgives
      have haccepted := (parseRateLimiter_gives_iff hinput).mp hgives
      exact ⟨burst_pos haccepted, expiresIn_pos haccepted hfits⟩

/-- The text `10/1s/5/1m`. -/
def burstOfFive : List U8 :=
  text ['1', '0', '/', '1', 's', '/', '5', '/', '1', 'm']

/-- Ten requests are the burst, where five are asked for. -/
theorem burstOfFive_dropped :
    ¬ParsedAsDocumented burstOfFive ∧
      Gives (parseRateLimiter burstOfFive) { burst := 10, expiresIn := 60000000000 } := by
  have hdropped : BurstDropped (burstOfFive.splitOn (character '/')) :=
    ⟨text ['1', '0'], text ['1', 's'], text ['5'], text ['1', 'm'], 10, 1000000000, by decide,
      by unfold PositiveInteger; decide, by unfold PositiveDuration; decide +kernel,
      .inr ⟨⟨60000000000, by unfold PositiveDuration; decide +kernel⟩, 5,
        by unfold PositiveInteger; decide, by decide⟩⟩
  refine ⟨fun hdocumented => hdocumented.not_burstDropped hdropped, ?_⟩
  unfold Gives
  decide +kernel

end LetDX.LetDD
