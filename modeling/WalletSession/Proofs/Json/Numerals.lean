import Mathlib.Data.List.TakeWhile
import Mathlib.Tactic.IntervalCases
import WalletSession.Json.Reader
import WalletSession.Proofs.Binary64.Scaled
import WalletSession.Proofs.Binary64.Shortest
import WalletSession.Proofs.Json.Written
import WalletSession.Proofs.Text.Digits

/-! Numbers and their texts. What the printer writes of a number is one numeral, however it lays the
decimal out, and the exact value of that numeral is nearest to the number. An integer is read back as
it was. What is read of a binary number is some finite number. -/
namespace WalletSession

namespace Binary64

variable {n : ℕ}

theorem isDigit_digitChars (n : ℕ) : ∀ c ∈ digitChars n, Text.isDigit c = true :=
  fun _ member => Nat.isDigit_of_mem_toDigits (by decide) (by decide) member

/-- No number but zero begins with a zero. -/
theorem digitChars_eq_cons (some : 0 < n) : ∃ c rest, digitChars n = c :: rest ∧ c ≠ '0' := by
  unfold digitChars
  induction n using Nat.strongRecOn with
  | ind n ih =>
    rcases lt_or_ge n 10 with small | large
    · refine ⟨_, _, Nat.toDigits_of_lt_base small, ?_⟩
      interval_cases n <;> decide
    · obtain ⟨c, rest, eq, proper⟩ := ih (n / 10) (by omega) (by omega)
      exact ⟨c, _, by rw [Nat.toDigits_of_base_le (by decide) large, eq]; rfl, proper⟩

theorem dropTrailingZeros_append (ds : List Char) : ∃ z, ds = dropTrailingZeros ds ++ zeros z := by
  refine ⟨(ds.reverse.takeWhile (· == '0')).length, ?_⟩
  have trail : ds.reverse.takeWhile (· == '0') =
      zeros (ds.reverse.takeWhile (· == '0')).length :=
    List.eq_replicate_of_mem fun c member => by simpa using List.mem_takeWhile_imp member
  have split := congrArg List.reverse (List.takeWhile_append_dropWhile (p := (· == '0')) (l := ds.reverse))
  rw [List.reverse_append, List.reverse_reverse, trail, zeros, List.reverse_replicate] at split
  exact split.symm

/-- The digits of a positive number without the zeros at their end. -/
theorem dropTrailingZeros_digitChars (some : 0 < n) : ∃ c rest z,
    dropTrailingZeros (digitChars n) = c :: rest ∧ c ≠ '0' ∧
      digitChars n = c :: rest ++ zeros z := by
  obtain ⟨c, rest, eq, proper⟩ := digitChars_eq_cons some
  obtain ⟨z, split⟩ := dropTrailingZeros_append (digitChars n)
  cases kept : dropTrailingZeros (digitChars n) with
  | nil =>
    rw [kept, eq, List.nil_append] at split
    exact absurd (List.eq_of_mem_replicate (split ▸ List.mem_cons_self)) proper
  | cons c' rest' =>
    rw [kept, eq, List.cons_append] at split
    obtain ⟨rfl, rfl⟩ := List.cons.inj split
    exact ⟨c, rest', z, rfl, proper, eq⟩

end Binary64

namespace Json

open Nat (ofDigitChars)

theorem digit?_of_isDigit {c : Char} (digit : Text.isDigit c = true) :
    digit? c = some (c.toNat - '0'.toNat) := if_pos digit

/-- More digits make a number no smaller. -/
theorem le_ofDigitChars (ds : List Char) (k : ℕ) : k ≤ ofDigitChars 10 ds k := by
  rw [Nat.ofDigitChars_eq_ofDigitChars_zero]
  exact (Nat.le_mul_of_pos_left k (by positivity)).trans (Nat.le_add_right _ _)

theorem ofDigitChars_lt {ds : List Char} (digits : ∀ c ∈ ds, Text.isDigit c = true) (k : ℕ) :
    ofDigitChars 10 ds k < 10 ^ ds.length * (k + 1) := by
  induction ds generalizing k with
  | nil => simp
  | cons c ds ih =>
    obtain ⟨digit, digits⟩ := List.forall_mem_cons.mp digits
    have small : c.toNat - '0'.toNat < 10 := by
      have most := (Text.isDigit_iff.mp digit).2
      change c.toNat - 48 < 10
      omega
    rw [Nat.ofDigitChars_cons, List.length_cons, pow_succ, mul_assoc]
    exact (ih digits _).trans_le (Nat.mul_le_mul_left _ (by omega))

namespace Numeral

variable {n : Numeral} {part : NumeralPart} {c : Char} {cs ds : List Char}

/-- A numeral with more of its characters. -/
def extendAll (n : Numeral) (part : NumeralPart) : List Char → Option (Numeral × NumeralPart)
  | [] => some (n, part)
  | c :: cs =>
    match n.extend part c with
    | some (n, part) => extendAll n part cs
    | none => none

theorem extendAll_append {n' : Numeral} {part' : NumeralPart}
    (read : n.extendAll part cs = some (n', part')) (ds : List Char) :
    n.extendAll part (cs ++ ds) = n'.extendAll part' ds := by
  induction cs generalizing n part with
  | nil =>
    cases read
    rfl
  | cons c cs ih =>
    simp only [List.cons_append, extendAll] at read ⊢
    cases stepped : n.extend part c with
    | none => simp [stepped] at read
    | some next =>
      rw [stepped] at read
      exact ih read

/-- A digit that fits is taken, unless digits were left before it. -/
theorem addDigit_of_lt (spare : n.isFull = false) {d : ℕ}
    (fits : 10 * n.significand.toNat + d < 2 ^ 64) (taken left : ℤ) :
    n.addDigit d taken left =
      { n with significand := .ofNat (10 * n.significand.toNat + d), shift := n.shift + taken } := by
  have few : ¬ (n.isFull || decide (Nat.pow 2 64 ≤ 10 * n.significand.toNat + d)) = true := by
    simpa [spare] using fits
  rw [addDigit, if_neg few]

theorem extendAll_whole (n : Numeral) (spare : n.isFull = false)
    (digits : ∀ c ∈ ds, Text.isDigit c = true) (fits : ofDigitChars 10 ds n.significand.toNat < 2 ^ 64) :
    n.extendAll .whole ds =
      some ({ n with significand := .ofNat (ofDigitChars 10 ds n.significand.toNat) }, .whole) := by
  induction ds generalizing n with
  | nil => rw [extendAll, Nat.ofDigitChars_nil, UInt64.ofNat_toNat]
  | cons c ds ih =>
    obtain ⟨digit, digits⟩ := List.forall_mem_cons.mp digits
    rw [Nat.ofDigitChars_cons] at fits ⊢
    have taken := (le_ofDigitChars ds _).trans_lt fits
    simp only [extendAll, extend, digit?_of_isDigit digit]
    rw [addWhole, addDigit_of_lt spare taken, ih]
    case spare => exact spare
    case digits => exact digits
    case fits => rwa [UInt64.toNat_ofNat_of_lt' taken]
    rw [UInt64.toNat_ofNat_of_lt' taken, add_zero]

theorem extendAll_places (n : Numeral) (spare : n.isFull = false)
    (digits : ∀ c ∈ ds, Text.isDigit c = true) (fits : ofDigitChars 10 ds n.significand.toNat < 2 ^ 64) :
    n.extendAll .places ds = some
      ({ n with
          significand := .ofNat (ofDigitChars 10 ds n.significand.toNat)
          shift := n.shift - ds.length }, .places) := by
  induction ds generalizing n with
  | nil => rw [extendAll, Nat.ofDigitChars_nil, UInt64.ofNat_toNat, List.length_nil, Nat.cast_zero, sub_zero]
  | cons c ds ih =>
    obtain ⟨digit, digits⟩ := List.forall_mem_cons.mp digits
    rw [Nat.ofDigitChars_cons] at fits ⊢
    have taken := (le_ofDigitChars ds _).trans_lt fits
    simp only [extendAll, extend, digit?_of_isDigit digit]
    rw [addPlace, addDigit_of_lt spare taken, ih]
    case spare => exact spare
    case digits => exact digits
    case fits => rwa [UInt64.toNat_ofNat_of_lt' taken]
    have shift : n.shift + -1 - ds.length = n.shift - (c :: ds).length := by
      rw [List.length_cons]
      push_cast
      ring
    rw [UInt64.toNat_ofNat_of_lt' taken, shift]

/-- The digits after the point, of which there is one at least. -/
theorem extendAll_point (n : Numeral) (spare : n.isFull = false) (some' : ds ≠ [])
    (digits : ∀ c ∈ ds, Text.isDigit c = true) (fits : ofDigitChars 10 ds n.significand.toNat < 2 ^ 64) :
    n.extendAll .point ds = some
      ({ n with
          significand := .ofNat (ofDigitChars 10 ds n.significand.toNat)
          shift := n.shift - ds.length }, .places) := by
  cases ds with
  | nil => contradiction
  | cons c ds =>
    rw [← extendAll_places n spare digits fits]
    simp only [extendAll, extend, digit?_of_isDigit (digits c List.mem_cons_self)]

theorem extendAll_power (n : Numeral) (digits : ∀ c ∈ ds, Text.isDigit c = true) :
    n.extendAll .power ds = some ({ n with power := ofDigitChars 10 ds n.power }, .power) := by
  induction ds generalizing n with
  | nil => rfl
  | cons c ds ih =>
    obtain ⟨digit, digits⟩ := List.forall_mem_cons.mp digits
    simp only [extendAll, extend, digit?_of_isDigit digit]
    rw [ih _ digits, Nat.ofDigitChars_cons]
    rfl

/-- The digits of a power after its sign. -/
theorem extendAll_powerSign (n : Numeral) (some' : ds ≠ [])
    (digits : ∀ c ∈ ds, Text.isDigit c = true) :
    n.extendAll .powerSign ds = some ({ n with power := ofDigitChars 10 ds n.power }, .power) := by
  cases ds with
  | nil => contradiction
  | cons c ds =>
    rw [← extendAll_power n digits]
    simp only [extendAll, extend, digit?_of_isDigit (digits c List.mem_cons_self)]

/-- The first digit of a number that does not begin with a zero. -/
theorem extendAll_sign (negative : Bool) (proper : c ≠ '0')
    (digits : ∀ a ∈ c :: ds, Text.isDigit a = true) (fits : ofDigitChars 10 (c :: ds) 0 < 2 ^ 64) :
    (start negative).extendAll .sign (c :: ds) =
      some ({ start negative with significand := .ofNat (ofDigitChars 10 (c :: ds) 0) }, .whole) := by
  obtain ⟨digit, -⟩ := List.forall_mem_cons.mp digits
  have some' : c.toNat - '0'.toNat ≠ 0 := by
    intro zero
    have least : '0'.toNat ≤ c.toNat := (Text.isDigit_iff.mp digit).1
    exact proper (Char.toNat_inj.mp (by omega))
  refine Eq.trans ?_ (extendAll_whole (start negative) rfl digits fits)
  simp only [extendAll, extend, digit?_of_isDigit digit, if_neg some']

/-- A fraction below one, with as many places as it has digits. -/
theorem extendAll_fraction (negative : Bool) (some' : ds ≠ [])
    (digits : ∀ c ∈ ds, Text.isDigit c = true) (fits : ofDigitChars 10 ds 0 < 2 ^ 64) :
    (start negative).extendAll .sign ('0' :: '.' :: ds) =
      some (⟨negative, .ofNat (ofDigitChars 10 ds 0), -ds.length, false, false, false, 0⟩, .places) := by
  have point := extendAll_point { start negative with integral := false } rfl some' digits fits
  rw [start, zero_sub] at point
  exact point

/-- A number with a point. -/
theorem extendAll_plain (negative : Bool) {whole places : List Char} (proper : c ≠ '0')
    (digits : ∀ a ∈ c :: whole, Text.isDigit a = true) (some' : places ≠ [])
    (digits' : ∀ a ∈ places, Text.isDigit a = true)
    (fits : ofDigitChars 10 (c :: whole ++ places) 0 < 2 ^ 64) :
    (start negative).extendAll .sign (c :: whole ++ '.' :: places) =
      some (⟨negative, .ofNat (ofDigitChars 10 (c :: whole ++ places) 0), -places.length, false, false,
        false, 0⟩, .places) := by
  rw [Nat.ofDigitChars_append] at fits ⊢
  have before := (le_ofDigitChars places _).trans_lt fits
  have point (n : Numeral) : n.extendAll .whole ('.' :: places) =
      extendAll { n with integral := false, isFull := false } .point places := rfl
  rw [extendAll_append (extendAll_sign negative proper digits before), point, extendAll_point]
  case spare => rfl
  case some' => exact some'
  case digits => exact digits'
  case fits => rwa [UInt64.toNat_ofNat_of_lt' before]
  rw [UInt64.toNat_ofNat_of_lt' before, start, zero_sub]

/-- A number with a power of ten, and with a point where it has more digits than one. -/
theorem extendAll_scientific (negative down : Bool) {rest power : List Char} (proper : c ≠ '0')
    (digits : ∀ a ∈ c :: rest, Text.isDigit a = true) (some' : power ≠ [])
    (digits' : ∀ a ∈ power, Text.isDigit a = true) (fits : ofDigitChars 10 (c :: rest) 0 < 2 ^ 64) :
    (start negative).extendAll .sign (c :: (if rest = [] then [] else '.' :: rest) ++
        'e' :: (if down then '-' else '+') :: power) =
      some (⟨negative, .ofNat (ofDigitChars 10 (c :: rest) 0), -rest.length, false, false, down,
        ofDigitChars 10 power 0⟩, .power) := by
  have mantissa : ∃ part, (part = .whole ∨ part = .places) ∧
      (start negative).extendAll .sign (c :: if rest = [] then [] else '.' :: rest) =
        some (⟨negative, .ofNat (ofDigitChars 10 (c :: rest) 0), -rest.length, false, rest = [], false, 0⟩,
          part) := by
    split
    next none =>
      subst none
      refine ⟨.whole, .inl rfl, ?_⟩
      rw [extendAll_sign negative proper digits fits]
      simp [start]
    next more =>
      refine ⟨.places, .inr rfl, ?_⟩
      obtain ⟨digit, others⟩ := List.forall_mem_cons.mp digits
      have plain := extendAll_plain negative proper (List.forall_mem_singleton.mpr digit) more others fits
      simpa [more] using plain
  obtain ⟨part, ends, eq⟩ := mantissa
  have mark (n : Numeral) : n.extendAll part ('e' :: (if down then '-' else '+') :: power) =
      extendAll { n with integral := false, powerNegative := if down then true else n.powerNegative }
        .powerSign power := by
    rcases ends with rfl | rfl <;> cases down <;> rfl
  rw [extendAll_append eq, mark, extendAll_powerSign _ some' digits']
  simp

/-- The text is one numeral whose exact value is so much, whatever sign stands before it, and is no
integer. -/
def Spells (body : List Char) (value : ℚ) : Prop :=
  ∀ negative, ∃ n part, (start negative).extendAll .sign body = some (n, part) ∧
    part.complete = true ∧ n.negative = negative ∧ n.integral = false ∧
    n.significand.toNat * 10 ^ n.exponent = value

variable {rest : List Char}

theorem isDigit_zeros (k : ℕ) : ∀ a ∈ Binary64.zeros k, Text.isDigit a = true := fun a member => by
  rw [List.eq_of_mem_replicate member]
  rfl

/-- A fraction below one. -/
theorem spells_fraction (k : ℕ) (some' : ds ≠ []) (digits : ∀ a ∈ ds, Text.isDigit a = true)
    (fits : ofDigitChars 10 ds 0 < 2 ^ 64) :
    Spells ('0' :: '.' :: (Binary64.zeros k ++ ds)) (ofDigitChars 10 ds 0 * 10 ^ (-(k + ds.length : ℤ))) := by
  intro negative
  have digits' : ∀ a ∈ Binary64.zeros k ++ ds, Text.isDigit a = true :=
    fun a member => (List.mem_append.mp member).elim (isDigit_zeros k a) (digits a)
  have worth : ofDigitChars 10 (Binary64.zeros k ++ ds) 0 = ofDigitChars 10 ds 0 := by
    rw [Nat.ofDigitChars_append, Binary64.zeros, Nat.ofDigitChars_replicate_zero, mul_zero]
  have read := extendAll_fraction negative (by simp [some']) digits' (worth.symm ▸ fits)
  rw [worth] at read
  refine ⟨_, _, read, rfl, rfl, rfl, ?_⟩
  rw [UInt64.toNat_ofNat_of_lt' fits]
  simp [exponent, Binary64.zeros]

/-- Digits around a point: those before it, filled up with zeros, and those after it. -/
theorem spells_plain {l : ℕ} (few : l < 18) (proper : c ≠ '0')
    (digits : ∀ a ∈ c :: rest, Text.isDigit a = true) (fits : ofDigitChars 10 (c :: rest) 0 < 2 ^ 64) :
    Spells ((c :: rest).take (l + 1) ++ Binary64.zeros (l + 1 - (c :: rest).length) ++
        '.' :: (if (c :: rest).drop (l + 1) = [] then ['0'] else (c :: rest).drop (l + 1)))
      (ofDigitChars 10 (c :: rest) 0 * 10 ^ (l - rest.length : ℤ)) := by
  intro negative
  rw [List.take_succ_cons, List.drop_succ_cons, List.cons_append]
  obtain ⟨digit, others⟩ := List.forall_mem_cons.mp digits
  have whole : ∀ a ∈ c :: (rest.take l ++ Binary64.zeros (l + 1 - (c :: rest).length)),
      Text.isDigit a = true := by
    refine List.forall_mem_cons.mpr ⟨digit, fun a member => ?_⟩
    exact (List.mem_append.mp member).elim (fun taken => others a (List.mem_of_mem_take taken))
      (isDigit_zeros _ a)
  split
  next short =>
    have length : rest.length ≤ l := List.drop_eq_nil_iff.mp short
    obtain ⟨j, rfl⟩ := Nat.exists_eq_add_of_le length
    have filled : c :: (rest.take (rest.length + j) ++
        Binary64.zeros (rest.length + j + 1 - (c :: rest).length)) ++ ['0'] =
          c :: rest ++ Binary64.zeros (j + 1) := by
      simp [Binary64.zeros, List.replicate_succ', List.take_of_length_le]
    have place : ∀ a ∈ ['0'], Text.isDigit a = true := by simp [Text.isDigit]
    -- the zeros that fill the digits up are read as digits, and nineteen digits fit
    have fits' : ofDigitChars 10 (c :: rest ++ Binary64.zeros (j + 1)) 0 < 2 ^ 64 := by
      have digits' : ∀ a ∈ c :: rest ++ Binary64.zeros (j + 1), Text.isDigit a = true :=
        fun a member => (List.mem_append.mp member).elim (digits a) (isDigit_zeros _ a)
      calc ofDigitChars 10 (c :: rest ++ Binary64.zeros (j + 1)) 0
          < 10 ^ (c :: rest ++ Binary64.zeros (j + 1)).length * (0 + 1) := ofDigitChars_lt digits' 0
        _ = 10 ^ (rest.length + j + 2) := by
          simp [Binary64.zeros]
          ring
        _ ≤ 10 ^ 19 := Nat.pow_le_pow_right (by norm_num) (by omega)
        _ < 2 ^ 64 := by norm_num
    have power : ((rest.length + j : ℕ) : ℤ) - rest.length = (j + 1 : ℕ) - 1 := by
      push_cast
      ring
    have read := extendAll_plain negative proper whole (by simp) place (filled.symm ▸ fits')
    rw [filled] at read
    refine ⟨_, _, read, rfl, rfl, rfl, ?_⟩
    rw [UInt64.toNat_ofNat_of_lt' fits', Nat.ofDigitChars_append, Binary64.zeros,
      Nat.ofDigitChars_replicate_zero, power, zpow_sub₀ (by norm_num), zpow_natCast]
    simp [exponent]
    ring
  next long =>
    have length : l < rest.length := by simpa using long
    have full : l + 1 - (c :: rest).length = 0 := by
      rw [List.length_cons]
      omega
    have cut : c :: (rest.take l ++ Binary64.zeros (l + 1 - (c :: rest).length)) ++ rest.drop l =
        c :: rest := by
      rw [full]
      simp [Binary64.zeros]
    have read := extendAll_plain negative proper whole long
      (fun a member => others a (List.mem_of_mem_drop member)) (cut.symm ▸ fits)
    rw [cut] at read
    refine ⟨_, _, read, rfl, rfl, rfl, ?_⟩
    rw [UInt64.toNat_ofNat_of_lt' fits]
    simp [exponent, Nat.cast_sub length.le]

/-- Digits around a point and a power of ten. -/
theorem spells_scientific (lead : ℤ) (proper : c ≠ '0')
    (digits : ∀ a ∈ c :: rest, Text.isDigit a = true) (fits : ofDigitChars 10 (c :: rest) 0 < 2 ^ 64) :
    Spells ((c :: rest).take 1 ++ (if (c :: rest).length ≤ 1 then [] else '.' :: (c :: rest).drop 1) ++
        'e' :: (if lead < 0 then '-' else '+') :: Binary64.digitChars lead.natAbs)
      (ofDigitChars 10 (c :: rest) 0 * 10 ^ (lead - rest.length : ℤ)) := by
  intro negative
  have mantissa : (c :: rest).take 1 ++
      (if (c :: rest).length ≤ 1 then [] else '.' :: (c :: rest).drop 1) =
        c :: if rest = [] then [] else '.' :: rest := by
    cases rest <;> simp
  have read := extendAll_scientific negative (decide (lead < 0)) proper digits
    (List.ne_nil_of_length_pos Nat.length_toDigits_pos) (Binary64.isDigit_digitChars lead.natAbs) fits
  simp only [decide_eq_true_eq] at read
  rw [mantissa]
  refine ⟨_, _, read, rfl, rfl, rfl, ?_⟩
  simp only [exponent, Nat.ofDigitChars_ten_toDigits, decide_eq_true_eq,
    UInt64.toNat_ofNat_of_lt' fits]
  congr 2
  split <;> omega

/-- The text of a decimal of few digits is a numeral of the same value. -/
theorem spells_write (layout : Binary64.Layout) (short : layout.greatestPlain < 18)
    {d : Binary64.Decimal} (some' : 0 < d.digits) (fits : d.digits < 2 ^ 64) :
    Spells (layout.write d) d.value := by
  obtain ⟨c, rest, z, kept, proper, written⟩ := Binary64.dropTrailingZeros_digitChars some'
  have digits : ∀ a ∈ c :: rest, Text.isDigit a = true := fun a member =>
    Binary64.isDigit_digitChars d.digits a (written ▸ List.mem_append_left _ member)
  have worth : d.digits = 10 ^ z * ofDigitChars 10 (c :: rest) 0 := by
    rw [← Nat.ofDigitChars_ten_toDigits (n := d.digits)]
    change ofDigitChars 10 (Binary64.digitChars d.digits) 0 = _
    rw [written, Nat.ofDigitChars_append, Binary64.zeros, Nat.ofDigitChars_replicate_zero]
  have fits : ofDigitChars 10 (c :: rest) 0 < 2 ^ 64 :=
    (Nat.le_mul_of_pos_left _ (by positivity)).trans_lt (worth ▸ fits)
  unfold Binary64.Layout.write
  simp only [kept]
  generalize leading : d.exponent + (Binary64.digitChars d.digits).length - 1 = lead
  have value : d.value = ofDigitChars 10 (c :: rest) 0 * 10 ^ (lead - rest.length) := by
    have shift : lead - rest.length = d.exponent + z := by
      rw [← leading, written]
      simp [Binary64.zeros]
      ring
    rw [Binary64.Decimal.value, worth, shift, zpow_add₀ (by norm_num)]
    push_cast
    rw [zpow_natCast]
    ring
  rw [value]
  split
  next within =>
    split
    next below =>
      have read := spells_fraction (-lead - 1).toNat (List.cons_ne_nil c rest) digits fits
      have shift : -((-lead - 1).toNat + (c :: rest).length : ℤ) = lead - rest.length := by
        simp
        omega
      rwa [shift] at read
    next plain =>
      obtain ⟨l, rfl⟩ := Int.eq_ofNat_of_zero_le (not_lt.mp plain)
      exact spells_plain (by omega) proper digits fits
  next => exact spells_scientific lead proper digits fits

end Numeral

namespace Scan

variable {s : Scan} {n : Numeral} {part : NumeralPart} {c : Char} {cs : List Char}

theorem run_number {n' : Numeral} {part' : NumeralPart} {done : List Token}
    (read : n.extendAll part cs = some (n', part')) :
    (Scan.mk (.number n part) done).run cs = some ⟨.number n' part', done⟩ := by
  induction cs generalizing n part with
  | nil =>
    cases read
    rfl
  | cons c cs ih =>
    simp only [Numeral.extendAll] at read
    cases stepped : n.extend part c with
    | none => simp [stepped] at read
    | some next =>
      rw [stepped] at read
      simp only [run, step, stepped]
      exact ih read

theorem begin_digit (digit : Text.isDigit c = true) :
    s.begin c = ((Numeral.start false).extend .sign c).map fun next =>
      s.enter (.number next.1 next.2) := by
  obtain ⟨least, most⟩ := Text.isDigit_iff.mp digit
  obtain ⟨k, small, rfl⟩ : ∃ k < 10, c = Char.ofNat (48 + k) :=
    ⟨c.toNat - 48, by omega, by rw [Nat.add_sub_cancel' least, Char.ofNat_toNat]⟩
  interval_cases k <;> rfl

end Scan

/-- What is read digit by digit is one number, with its sign if it has one. -/
theorem tokens?_number {negative : Bool} {n : Numeral} {part : NumeralPart} {body : List Char}
    (read : (Numeral.start negative).extendAll .sign body = some (n, part))
    (complete : part.complete = true) :
    tokens? ((if negative then ['-'] else []) ++ body) = some [.number n] := by
  have finished : (Scan.mk (.number n part) []).finish = some [.number n] := if_pos complete
  have ran : (Scan.mk .between []).run ((if negative then ['-'] else []) ++ body) =
      some ⟨.number n part, []⟩ := by
    cases negative with
    | true => exact Scan.run_number read
    | false =>
      cases body with
      | nil =>
        cases read
        contradiction
      | cons c cs =>
        simp only [Numeral.extendAll] at read
        cases stepped : (Numeral.start false).extend .sign c with
        | none => simp [stepped] at read
        | some next =>
          have digit : Text.isDigit c = true := by
            by_contra other
            simp [Numeral.extend, digit?, other] at stepped
          rw [stepped] at read
          simp only [Bool.false_eq_true, if_false, List.nil_append, Scan.run, Scan.step,
            Scan.begin_digit digit, stepped, Option.map_some]
          exact Scan.run_number read
  rw [tokens?, ran]
  exact finished

end Json

open Json

theorem Json.parse?_of_number {cs : List Char} {n : Numeral} (token : tokens? cs = some [.number n]) :
    Tree.parse? cs = some (.number n) := by
  rw [Tree.parse?, token]
  rfl

namespace Binary64

/-- What is read of the text of a number. -/
def echo? (x : Binary64) : Option Binary64 :=
  Reader.binary64.decode? (.ofList x.jsonChars)

/-- The text of the number is read back as the number. -/
def ReadsBack (x : Binary64) : Prop :=
  Reader.binary64.decode? (.ofList x.jsonChars) = some x

instance (x : Binary64) : Decidable x.ReadsBack := inferInstanceAs (Decidable (_ = _))

variable {x y : Binary64}

/-- The text of a finite number is one numeral whose exact value would be rounded to the number. -/
theorem numeral_jsonChars (finite : x.isFinite = true) :
    ∃ n : Numeral, tokens? x.jsonChars = some [.number n] ∧ n.integral = false ∧
      RoundsTo n.negative (n.significand.toNat * 10 ^ n.exponent) x := by
  simp only [jsonChars, finite, if_true, decimalText]
  rcases Nat.eq_zero_or_pos x.significand with none | positive
  · rw [if_pos none]
    have read : (Numeral.start x.negative).extendAll .sign ['0', '.', '0'] =
        some (⟨x.negative, 0, -1, false, false, false, 0⟩, .places) := rfl
    refine ⟨_, tokens?_number read rfl, rfl, ofDecimal_eq_iff.mp ?_⟩
    exact zero_eq none
  · have near := shortest_near finite positive
    have some' : 0 < x.shortest.digits := by
      by_contra none
      have pos := near.pos positive
      simp [Decimal.value, Nat.eq_zero_of_not_pos none] at pos
    have fits : x.shortest.digits < 2 ^ 64 :=
      (shortest_digits_le finite positive).trans_lt (by norm_num)
    obtain ⟨n, part, read, complete, sign, fractional, value⟩ :=
      Numeral.spells_write numberLayout (by decide) some' fits x.negative
    rw [if_neg positive.ne']
    exact ⟨n, tokens?_number read complete, fractional, .near sign.symm finite (value ▸ near)⟩

/-- Different numbers have different texts. -/
theorem jsonChars_inj (finite : x.isFinite = true) (finite' : y.isFinite = true) :
    x.jsonChars = y.jsonChars ↔ x = y := by
  refine ⟨fun same => ?_, congrArg jsonChars⟩
  obtain ⟨n, token, -, rounds⟩ := numeral_jsonChars finite
  obtain ⟨m, token', -, rounds'⟩ := numeral_jsonChars finite'
  rw [same, token', Option.some.injEq, List.cons.injEq, Token.number.injEq] at token
  exact rounds.unique (token.1 ▸ rounds')

theorem echo?_eq {n : Numeral} (token : tokens? x.jsonChars = some [.number n])
    (fractional : n.integral = false) : x.echo? = ofParts? n.negative n.significand n.exponent := by
  rw [echo?, Reader.decode?, String.toList_ofList, parse?_of_number token, Option.bind_some]
  simp only [Reader.binary64, Numeral.value?, fractional, Bool.false_and, Bool.false_eq_true, false_and,
    if_false, Option.map_map]
  exact Option.map_id'

/-- What is read of the text of a finite number is a finite number. -/
theorem echo?_isFinite (finite : x.isFinite = true) : ∃ y, x.echo? = some y ∧ y.isFinite = true := by
  obtain ⟨n, token, fractional, rounds⟩ := numeral_jsonChars finite
  have read : x.echo?.isSome = true := by
    rcases magnitude_le_or_greatest finite with low | ⟨k, few, eq⟩
    · have near := rounds.near_of_lt (rounds.isFinite_iff.mp finite)
      rw [echo?_eq token fractional]
      exact isSome_ofParts? n.negative (near.le_magnitude.trans low)
    · -- for the greatest numbers the bound is too coarse
      have greatest : ∀ negative, ∀ k < 3,
          (signed negative (2047 * Nat.pow 2 52 - 1 - k)).echo?.isSome = true := by decide +kernel
      exact eq ▸ greatest x.negative k few
  obtain ⟨y, eq⟩ := Option.isSome_iff_exists.mp read
  exact ⟨y, eq, isFinite_of_ofParts? ((echo?_eq token fractional).symm.trans eq)⟩

end Binary64

namespace Number

/-- A number is an integer of 64 bits or finite. -/
def Fits : Number → Prop
  | .integer n => -2 ^ 63 ≤ n ∧ n < 2 ^ 64
  | .real x => x.isFinite = true

instance : DecidablePred Fits
  | .integer _ => inferInstanceAs (Decidable (_ ∧ _))
  | .real _ => inferInstanceAs (Decidable (_ = _))

/-- The number is read back from its text. An integer always is. -/
def ReadsBack : Number → Prop
  | .integer n => Fits (.integer n)
  | .real x => x.ReadsBack

instance : DecidablePred ReadsBack
  | .integer n => inferInstanceAs (Decidable (Fits (.integer n)))
  | .real x => inferInstanceAs (Decidable x.ReadsBack)

/-- The text of a number is one numeral, which has some value. -/
theorem numeral_chars {v : Number} (fits : v.Fits) :
    ∃ n v', tokens? v.chars = some [.number n] ∧ n.value? = some v' ∧ (v.ReadsBack → v' = v) := by
  cases v with
  | real x =>
    obtain ⟨n, token, fractional, -⟩ := Binary64.numeral_jsonChars fits
    obtain ⟨y, echo, -⟩ := Binary64.echo?_isFinite fits
    have worth : n.value? = some (.real y) := by
      rw [← Option.map_some, ← echo, Binary64.echo?_eq token fractional]
      simp [Numeral.value?, fractional]
    refine ⟨n, _, token, worth, fun reads => congrArg real ?_⟩
    exact Option.some.inj (echo.symm.trans reads)
  | integer n =>
    obtain ⟨least, most⟩ := fits
    rcases eq_or_ne n 0 with rfl | other
    · exact ⟨_, _, rfl, rfl, fun _ => rfl⟩
    · obtain ⟨c, rest, written, proper⟩ := Binary64.digitChars_eq_cons (n := n.natAbs) (by omega)
      have digits := written ▸ Binary64.isDigit_digitChars n.natAbs
      have worth : Nat.ofDigitChars 10 (c :: rest) 0 = n.natAbs := by
        rw [← written]
        exact Nat.ofDigitChars_ten_toDigits
      have small : n.natAbs < 2 ^ 64 := by omega
      have read := Numeral.extendAll_sign (n < 0) proper digits (worth ▸ small)
      have token := tokens?_number read rfl
      simp only [decide_eq_true_eq] at token
      rw [chars, written]
      refine ⟨_, .integer n, token, ?_, fun _ => rfl⟩
      simp only [Numeral.value?, worth, Numeral.start, Nat.pow_eq, UInt64.toNat_ofNat_of_lt' small]
      by_cases below : n < 0
      · rw [if_neg (by simp [below]), if_pos (by simp; omega)]
        simp only [Option.some.injEq, integer.injEq]
        omega
      · rw [if_pos (by simp [below])]
        simp only [Option.some.injEq, integer.injEq]
        omega

/-- What is read of a numeral is a number that fits. -/
theorem fits_of_value? {n : Numeral} {v : Number} (read : n.value? = some v) : v.Fits := by
  have small := n.significand.toNat_lt
  simp only [Numeral.value?, Nat.pow_eq] at read
  split at read
  next natural =>
    cases read
    exact ⟨by omega, by omega⟩
  next =>
  split at read
  next negative =>
    cases read
    exact ⟨by omega, by omega⟩
  next =>
    obtain ⟨x, parts, rfl⟩ := Option.map_eq_some_iff.mp read
    exact Binary64.isFinite_of_ofParts? parts

theorem isFinite_toBinary64 {v : Number} (fits : v.Fits) : v.toBinary64.isFinite = true := by
  cases v with
  | real x => exact fits
  | integer n =>
    refine Binary64.isFinite_ofRatio _ Nat.one_pos ?_
    have small : n.natAbs < 2 ^ 65 := by
      obtain ⟨least, most⟩ := fits
      omega
    have small : (n.natAbs : ℚ) < 2 ^ (65 : ℤ) := by exact_mod_cast small
    rw [Nat.cast_one, div_one]
    exact small.trans_le (zpow_le_zpow_right₀ (by norm_num) (by norm_num))

end Number

/-- No number that is read is infinite. -/
theorem Json.isFinite_of_binary64 {depth : ℕ} {t : Tree} {x : Binary64}
    (read : Reader.binary64 depth t = some x) : x.isFinite = true := by
  unfold Reader.binary64 at read
  split at read
  next n =>
    obtain ⟨v, value, rfl⟩ := Option.map_eq_some_iff.mp read
    exact Number.isFinite_toBinary64 (Number.fits_of_value? value)
  next => contradiction

/-- What is read back is finite, as all is that is read. -/
theorem Binary64.ReadsBack.isFinite {x : Binary64} (reads : x.ReadsBack) : x.isFinite = true := by
  obtain ⟨_, -, read⟩ := Option.bind_eq_some_iff.mp reads
  exact isFinite_of_binary64 read

theorem Number.ReadsBack.fits {v : Number} (reads : v.ReadsBack) : v.Fits := by
  cases v with
  | integer n => exact reads
  | real x => exact Binary64.ReadsBack.isFinite reads

end WalletSession
