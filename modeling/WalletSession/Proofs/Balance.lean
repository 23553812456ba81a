import WalletSession.Balance
import WalletSession.Proofs.Binary64.Spelling
import WalletSession.Proofs.Binary64.Whole
import WalletSession.Proofs.Json.Values

/-! Balances as they are shown. A count is shown the same whether the chain writes it as a number or as
text with white space around it, and an answer that holds no count shows as zero. What is shown is
finite unless the text of the answer spells what is no finite number. -/
namespace WalletSession

namespace Balance

open Text Binary64

variable {x : Binary64} {answer : Json}

/-- Only what is finite is scaled and rounded. -/
theorem toDisplayUnits_of_infinite (infinite : x.isFinite = false) : toDisplayUnits x = x := by
  simp [toDisplayUnits, divNat, roundHalfAway, infinite]

theorem isFinite_toDisplayUnits (x : Binary64) : (toDisplayUnits x).isFinite = x.isFinite := by
  cases finite : x.isFinite with
  | false => rw [toDisplayUnits_of_infinite finite, finite]
  | true =>
    obtain ⟨n, whole⟩ := roundHalfAway_spec
      (isFinite_divNat finite (show 2 ≤ Nat.pow 10 (decimals - displayDecimals) by decide))
    exact isFinite_divNat whole.finite (by decide)

/-- What is shown comes from two divisions, each of them rounded, with a whole number between them. -/
theorem toDisplayUnits_spec (finite : x.isFinite = true) :
    ∃ y z n, RoundsTo x.negative (x.magnitude / 10 ^ (decimals - displayDecimals)) y ∧
      IsWhole x.negative y.magnitude n z ∧
      RoundsTo x.negative (n / 10 ^ displayDecimals) (toDisplayUnits x) := by
  have large : 2 ≤ Nat.pow 10 (decimals - displayDecimals) := by decide
  have quotient := roundsTo_divNat finite (show 0 < Nat.pow 10 (decimals - displayDecimals) by decide)
  have finite' := isFinite_divNat finite large
  have sign := quotient.negative_of_lt (quotient.isFinite_iff.mp finite')
  obtain ⟨n, whole⟩ := roundHalfAway_spec finite'
  have shown := roundsTo_divNat whole.finite (show 0 < Nat.pow 10 displayDecimals by decide)
  rw [sign] at whole
  rw [whole.sign, whole.magnitude] at shown
  simp only [Nat.pow_eq, Nat.cast_pow, Nat.cast_ofNat] at quotient shown
  exact ⟨_, _, n, quotient, whole, shown⟩

/-- A count that a number holds as it is shows as the decimal of four places that is nearest to it, of two
the greater one. -/
theorem toDisplayUnits_of_count (finite : x.isFinite = true) {n : ℕ} (count : x.magnitude = n)
    (few : n ≤ 2 ^ 53) :
    RoundsTo x.negative (((n + 5000) / 10000 : ℕ) / 10000) (toDisplayUnits x) := by
  obtain ⟨y, z, k, quotient, whole, shown⟩ := toDisplayUnits_spec finite
  have step : (10 : ℚ) ^ (decimals - displayDecimals) = 10000 := by norm_num [decimals, displayDecimals]
  have scale : (10 : ℚ) ^ displayDecimals = 10000 := by norm_num [displayDecimals]
  rw [step, count] at quotient
  rw [scale] at shown
  have near := quotient.near_of_lt
    ((div_le_self (Nat.cast_nonneg n) (by norm_num)).trans_lt (lt_overflow_of_le few))
  have unit : y.exponent ≤ -13 := by
    have few : (n : ℚ) ≤ 2 ^ 53 := by exact_mod_cast few
    exact near.exponent_le (by norm_num) (by norm_num; linarith)
  have half : (2 : ℚ) ^ y.exponent / 2 ≤ 1 / 2 ^ 14 := by
    have power : (2 : ℚ) ^ y.exponent ≤ 2 ^ (-13 : ℤ) := zpow_le_zpow_right₀ (by norm_num) unit
    norm_num at power ⊢
    linarith
  have above := near.magnitude_le
  have below := near.le_magnitude
  have low := whole.low
  have high := whole.high
  have least : 10000 * k < n + 5000 + 1 := by
    have least : (10000 * k : ℚ) < n + 5000 + 1 := by linarith
    exact_mod_cast least
  have most : n < 10000 * k + 5000 + 1 := by
    have most : (n : ℚ) < 10000 * k + 5000 + 1 := by linarith
    exact_mod_cast most
  -- the division of a tie is exact, so that it stays one
  have apart : n ≠ 10000 * k + 5000 := by
    rintro rfl
    have exact' := near.magnitude_eq (m := 2 * k + 1) (e := -1) (by push_cast; ring) (by omega)
    rw [exact'] at high
    push_cast at high
    linarith
  rwa [show (n + 5000) / 10000 = k by omega]

/-- The first place of the answer holds a number, or a text that is read as one when the white space
around it is left out. -/
inductive Records : Json → Binary64 → Prop
  | number {n : Number} {rest : List Json} : Records (.array (.number n :: rest)) n.toBinary64
  | text {core s : String} {rest : List Json} {x : Binary64} (padded : Padded core s)
      (reads : Reads core.toList x) : Records (.array (.string s :: rest)) x

theorem baseUnits?_eq_some_iff : baseUnits? answer = some x ↔ Records answer x := by
  constructor
  · intro read
    unfold baseUnits? at read
    split at read
    · cases read
      exact .number
    · next s rest =>
      refine .text (padded_trim s) (ofChars?_eq_some_iff.mp ?_)
      rwa [trim, String.toList_ofList]
    · contradiction
  · intro records
    cases records with
    | number => rfl
    | text padded reads =>
      have trimmed := (trim_of_padded padded).trans (trim_of_isTrimmed (isTrimmed_of_solid reads.solid))
      have read := ofChars?_eq_some_iff.mpr reads
      rwa [← trimmed, trim, String.toList_ofList] at read

theorem ofAnswer_of_records (records : Records answer x) : ofAnswer answer = toDisplayUnits x := by
  rw [ofAnswer, baseUnits?_eq_some_iff.mpr records]

theorem ofAnswer_of_unrecorded (none : ¬ ∃ x, Records answer x) : ofAnswer answer = .zero false := by
  cases read : baseUnits? answer with
  | some x => exact absurd ⟨x, baseUnits?_eq_some_iff.mp read⟩ none
  | none => rw [ofAnswer, read]

theorem roundsTo_ofInt (n : ℕ) : RoundsTo false n (ofInt n) := roundsTo_nat false n

/-- A count of the chain shows in whole units and four places. -/
theorem ofAnswer_of_count {n : ℕ} (few : n ≤ 2 ^ 53) (rest : List Json) :
    RoundsTo false (((n + 5000) / 10000 : ℕ) / 10000) (ofAnswer (.array (.number (.integer n) :: rest))) := by
  have rounds := roundsTo_ofInt n
  have fits := lt_overflow_of_le few
  have shown := toDisplayUnits_of_count (rounds.isFinite_iff.mpr fits) (rounds.magnitude_eq few) few
  rw [rounds.negative_of_lt fits] at shown
  rwa [ofAnswer_of_records .number]

example : ofAnswer (.array [.number (.integer 123456789)]) = .ofDecimal false 12346 (-4) := by
  decide +kernel

theorem numeral_repr (n : ℕ) : SpellsRatio n.repr.toList false n := by
  obtain ⟨some', digits⟩ := isWholeNumber_iff.mp (isWholeNumber_repr n)
  have numeral : SpellsRatio ([] ++ (n.repr.toList ++ [])) false _ := .mk .none (.whole some' digits) .none
  have value : Nat.ofDigitChars 10 n.repr.toList 0 = n := digitsValue_repr n
  rwa [List.nil_append, List.append_nil, value, zpow_zero, mul_one] at numeral

/-- A count of 64 bits is shown the same however the chain writes it, namely as the number nearest to it,
scaled and rounded; and what is not read as a count shows as zero. -/
theorem spellings_agree :
    (∀ (n : UInt64) (s : String) (rest rest' : List Json), Padded n.toNat.repr s →
      ofAnswer (.array (.number (.integer n.toNat) :: rest)) = ofAnswer (.array (.string s :: rest')) ∧
        ∃ x, RoundsTo false n.toNat x ∧ x.isFinite = true ∧
          ofAnswer (.array (.string s :: rest')) = toDisplayUnits x) ∧
      ∀ answer, (¬ ∃ x, Records answer x) → ofAnswer answer = .zero false := by
  refine ⟨fun n s rest rest' padded => ?_, fun answer => ofAnswer_of_unrecorded⟩
  have rounds := roundsTo_ofInt n.toNat
  have number : Records (.array (.number (.integer n.toNat) :: rest)) (ofInt n.toNat) := .number
  have text : Records (.array (.string s :: rest')) (ofInt n.toNat) :=
    .text padded (.numeral (numeral_repr n.toNat) rounds)
  have fits : (Number.integer n.toNat).Fits := ⟨by omega, by exact_mod_cast n.toNat_lt⟩
  refine ⟨?_, ofInt n.toNat, rounds, Number.isFinite_toBinary64 fits, ofAnswer_of_records text⟩
  rw [ofAnswer_of_records number, ofAnswer_of_records text]

/-- A count that lies halfway between two numbers. -/
theorem padded_tie_agrees :
    Padded (9007199254740993 : UInt64).toNat.repr "\u3000\t9007199254740993\u00a0" ∧
      ofAnswer (.array [.number (.integer 9007199254740993), .null]) =
        ofAnswer (.array [.string "\u3000\t9007199254740993\u00a0"]) ∧
      ofAnswer (.object [("value", .number (.integer 1))]) = .zero false := by
  have padded : Padded (9007199254740993 : UInt64).toNat.repr "\u3000\t9007199254740993\u00a0" :=
    ⟨"\u3000\t", "\u00a0", by decide, by decide, by decide +kernel⟩
  refine ⟨padded, (spellings_agree.1 9007199254740993 _ [.null] [] padded).1, spellings_agree.2 _ ?_⟩
  rintro ⟨x, ⟨⟩⟩

/-- The answer is a count: a number, or a text that is a numeral in the range of the numbers when the white
space around it is left out. -/
inductive Counts : Json → Binary64 → Prop
  | number {n : Number} {rest : List Json} : Counts (.array (.number n :: rest)) n.toBinary64
  | text {core s : String} {rest : List Json} {negative : Bool} {r : ℚ} {x : Binary64}
      (padded : Padded core s) (numeral : SpellsRatio core.toList negative r) (small : r < overflow)
      (rounds : RoundsTo negative r x) : Counts (.array (.string s :: rest)) x

/-- The answer is a text that spells what is no finite number. -/
inductive Escapes : Json → Binary64 → Prop
  | text {core s : String} {rest : List Json} {x : Binary64} (padded : Padded core s)
      (exceeds : Exceeds core.toList x) : Escapes (.array (.string s :: rest)) x

theorem records_iff : Records answer x ↔ Counts answer x ∨ Escapes answer x := by
  constructor
  · intro records
    cases records with
    | number => exact .inl .number
    | text padded reads =>
      cases finite : x.isFinite with
      | false => exact .inr (.text padded (exceeds_iff.mpr ⟨reads, finite⟩))
      | true =>
        obtain ⟨negative, r, numeral, small, rounds⟩ := reads.exists_numeral finite
        exact .inl (.text padded numeral small rounds)
  · rintro (counts | escapes)
    · cases counts with
      | number => exact .number
      | text padded numeral small rounds => exact .text padded (.numeral numeral rounds)
    · obtain ⟨padded, exceeds⟩ := escapes
      exact .text padded (exceeds_iff.mp exceeds).1

theorem Escapes.isFinite (escapes : Escapes answer x) : x.isFinite = false := by
  obtain ⟨-, exceeds⟩ := escapes
  exact (exceeds_iff.mp exceeds).2

/-- What is no finite number is shown as it is. -/
theorem ofAnswer_of_escapes (escapes : Escapes answer x) : ofAnswer answer = x := by
  rw [ofAnswer_of_records (records_iff.mpr (.inr escapes)), toDisplayUnits_of_infinite escapes.isFinite]

theorem ofAnswer_of_counts (counts : Counts answer x) : ofAnswer answer = toDisplayUnits x :=
  ofAnswer_of_records (records_iff.mpr (.inl counts))

/-- What is neither shows as zero. -/
theorem ofAnswer_of_other (uncounted : ¬ ∃ x, Counts answer x) (inside : ¬ ∃ x, Escapes answer x) :
    ofAnswer answer = .zero false := by
  refine ofAnswer_of_unrecorded ?_
  rintro ⟨x, records⟩
  rcases records_iff.mp records with counts | escapes
  · exact uncounted ⟨x, counts⟩
  · exact inside ⟨x, escapes⟩

variable {depth : ℕ}

theorem Counts.isFinite (counts : Counts answer x) (readable : answer.Readable depth) :
    x.isFinite = true := by
  cases counts with
  | number =>
    cases readable with
    | array values =>
      cases values _ List.mem_cons_self with
      | number fits => exact Number.isFinite_toBinary64 fits
  | text _ _ small rounds => exact rounds.isFinite_iff.mpr small

theorem isFinite_ofAnswer_iff (readable : answer.Readable depth) :
    (ofAnswer answer).isFinite = true ↔ ¬ ∃ x, Escapes answer x := by
  constructor
  · rintro finite ⟨x, escapes⟩
    rw [ofAnswer_of_escapes escapes, escapes.isFinite] at finite
    contradiction
  · intro inside
    by_cases counted : ∃ x, Counts answer x
    · obtain ⟨x, counts⟩ := counted
      rw [ofAnswer_of_counts counts, isFinite_toDisplayUnits, counts.isFinite readable]
    · rw [ofAnswer_of_other counted inside]
      decide

/-- What is shown of a value that the chain answers. It is finite unless the answer is a text that spells
what is no finite number, and that is then shown as it is; a count is scaled and rounded, and whatever
else is answered shows as zero. -/
theorem finite_unless_escapes (readable : answer.Readable depth) :
    ((ofAnswer answer).isFinite = true ↔ ¬ ∃ x, Escapes answer x) ∧
      (∀ x, Escapes answer x → ofAnswer answer = x ∧ x.isFinite = false) ∧
      (∀ x, Counts answer x → ofAnswer answer = toDisplayUnits x ∧ x.isFinite = true) ∧
      ((¬ ∃ x, Counts answer x) → (¬ ∃ x, Escapes answer x) → ofAnswer answer = .zero false) := by
  refine ⟨isFinite_ofAnswer_iff readable, fun x escapes => ?_, fun x counts => ?_, ofAnswer_of_other⟩
  · exact ⟨ofAnswer_of_escapes escapes, escapes.isFinite⟩
  · exact ⟨ofAnswer_of_counts counts, counts.isFinite readable⟩

/-- The greatest number. -/
def greatest : Binary64 := ⟨0x7fefffffffffffff⟩

/-- An answer with a numeral that is just not too large, and still rounds to the greatest number. -/
def nearlyTooLarge : Json := .array [.string " +1797693134862315807E290\u2003", .null]

theorem counts_nearlyTooLarge : Counts nearlyTooLarge greatest := by
  have value : Nat.ofDigitChars 10 "1797693134862315807".toList 0 = 1797693134862315807 := by
    decide +kernel
  have mantissa : Mantissa "1797693134862315807".toList (1797693134862315807 : ℕ) :=
    value ▸ .whole (List.cons_ne_nil _ _) (List.all_eq_true.mp rfl)
  have power : Power "E290".toList 290 := .written (.inr rfl) .none (List.cons_ne_nil _ _) (List.all_eq_true.mp rfl)
  have numeral : SpellsRatio "+1797693134862315807E290".toList false _ := .mk .plus mantissa power
  have rounded : ofDecimal false 1797693134862315807 290 = greatest := by decide +kernel
  have rounds := ofDecimal_eq_iff.mp rounded
  exact .text ⟨" ", "\u2003", by decide, by decide, by decide⟩ numeral (rounds.isFinite_iff.mp rfl) rounds

theorem nearlyTooLarge_is_finite :
    nearlyTooLarge.Readable 1 ∧ Counts nearlyTooLarge greatest ∧
      ofAnswer nearlyTooLarge = toDisplayUnits greatest ∧ (ofAnswer nearlyTooLarge).isFinite = true := by
  have readable : nearlyTooLarge.Readable 1 := .array fun v member => by
    simp only [List.mem_cons, List.not_mem_nil, or_false] at member
    rcases member with rfl | rfl
    · exact .string _
    · exact .null
  have shown := (finite_unless_escapes readable).2.2.1 greatest counts_nearlyTooLarge
  refine ⟨readable, counts_nearlyTooLarge, shown.1, ?_⟩
  rw [shown.1, isFinite_toDisplayUnits, shown.2]

/-- A word is no numeral, and shows as an infinity. -/
theorem not_always_finite :
    (¬ ∀ depth answer, Json.Readable depth answer → (ofAnswer answer).isFinite = true) ∧
      ¬ ∀ depth answer, Json.Readable depth answer → (¬ ∃ x, Counts answer x) →
        ofAnswer answer = .zero false := by
  have readable : Json.Readable 1 (.array [.string "inf"]) := .array fun v member => by
    rw [List.mem_singleton.mp member]
    exact .string _
  have shown : ofAnswer (.array [.string "inf"]) = infinity false := by decide +kernel
  constructor
  · intro always
    have finite := always 1 _ readable
    rw [shown, isFinite_infinity] at finite
    contradiction
  · intro always
    have zero := always 1 _ readable ?_
    · exact absurd (shown.symm.trans zero) (by decide)
    · rintro ⟨x, counts⟩
      have finite := counts.isFinite readable
      rw [← isFinite_toDisplayUnits, ← ofAnswer_of_counts counts, shown, isFinite_infinity] at finite
      contradiction

end Balance

end WalletSession
