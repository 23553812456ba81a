import WalletSession.Binary64.Reader
import WalletSession.Proofs.Binary64.Rounded
import WalletSession.Proofs.Text.Case
import WalletSession.Proofs.Text.Digits

/-! Texts that are read as a number. A numeral has a sign or none, digits around a point or without one,
and a power of ten or none; it is read as the number that its exact value rounds to. Besides there are
the words for what is no number, in letters of any case. Nothing else is read. -/
namespace WalletSession.Binary64

open Text
open Nat (ofDigitChars)

/-- A sign, or none. -/
inductive Sign : List Char → Bool → Prop
  | none : Sign [] false
  | plus : Sign ['+'] false
  | minus : Sign ['-'] true

/-- Digits around a point, where one side may be empty, or without one. -/
inductive Mantissa : List Char → ℚ → Prop
  | whole {ds : List Char} (some : ds ≠ []) (digits : ∀ c ∈ ds, c.isDigit = true) :
      Mantissa ds (ofDigitChars 10 ds 0)
  | pointed {whole places : List Char} (some : whole ++ places ≠ [])
      (digits : ∀ c ∈ whole ++ places, c.isDigit = true) :
      Mantissa (whole ++ '.' :: places) (ofDigitChars 10 (whole ++ places) 0 / 10 ^ places.length)

/-- A power of ten behind its mark, or none. -/
inductive Power : List Char → ℤ → Prop
  | none : Power [] 0
  | written {mark : Char} {sign ds : List Char} {negative : Bool} (marked : mark = 'e' ∨ mark = 'E')
      (signed : Sign sign negative) (some : ds ≠ []) (digits : ∀ c ∈ ds, c.isDigit = true) :
      Power (mark :: (sign ++ ds))
        (if negative then -(ofDigitChars 10 ds 0 : ℤ) else ofDigitChars 10 ds 0)

/-- A numeral with its sign and its exact magnitude. -/
inductive SpellsRatio : List Char → Bool → ℚ → Prop
  | mk {sign mantissa power : List Char} {negative : Bool} {v : ℚ} {e : ℤ} (signed : Sign sign negative)
      (digits : Mantissa mantissa v) (scaled : Power power e) :
      SpellsRatio (sign ++ (mantissa ++ power)) negative (v * 10 ^ e)

/-- A word for infinity. -/
def SpellsInfinity (word : List Char) : Prop :=
  EqUpToCase (.ofList word) "inf" ∨ EqUpToCase (.ofList word) "infinity"

/-- A text that is read as a number, and that number. -/
inductive Reads : List Char → Binary64 → Prop
  | numeral {cs : List Char} {negative : Bool} {r : ℚ} {x : Binary64} (numeral : SpellsRatio cs negative r)
      (rounds : RoundsTo negative r x) : Reads cs x
  | infinite {sign word : List Char} {negative : Bool} (signed : Sign sign negative)
      (spells : SpellsInfinity word) : Reads (sign ++ word) (infinity negative)
  | undefined {sign word : List Char} {negative : Bool} (signed : Sign sign negative)
      (spells : EqUpToCase (.ofList word) "nan") : Reads (sign ++ word) nan

section Signs

variable {sign body : List Char} {negative : Bool}

theorem exists_sign (cs : List Char) :
    ∃ sign, Sign sign (takeSign cs).1 ∧ cs = sign ++ (takeSign cs).2 := by
  unfold takeSign
  split
  · exact ⟨_, .minus, rfl⟩
  · exact ⟨_, .plus, rfl⟩
  · exact ⟨_, .none, rfl⟩

/-- What follows a sign begins with none itself. -/
theorem takeSign_append (signed : Sign sign negative) (bare : ∀ c ∈ body.head?, c ≠ '+' ∧ c ≠ '-') :
    takeSign (sign ++ body) = (negative, body) := by
  cases signed with
  | plus | minus => rfl
  | none =>
    rw [List.nil_append]
    unfold takeSign
    split
    · exact absurd rfl (bare '-' rfl).2
    · exact absurd rfl (bare '+' rfl).1
    · rfl

end Signs

section Digits

variable {ds rest : List Char} {c : Char} {e : ℤ}

theorem ne_sign_of_isDigit (digit : c.isDigit = true) : c ≠ '+' ∧ c ≠ '-' := by
  constructor <;> rintro rfl <;> contradiction

theorem exists_digits (cs : List Char) :
    ∃ ds rest, cs = ds ++ rest ∧ (∀ c ∈ ds, c.isDigit = true) ∧ ∀ c ∈ rest.head?, c.isDigit = false := by
  refine ⟨cs.takeWhile isDigit, cs.dropWhile isDigit, List.takeWhile_append_dropWhile.symm,
    fun c member => List.mem_takeWhile_imp member, fun c first => ?_⟩
  have stops := List.head?_dropWhile_not isDigit cs
  rwa [Option.mem_def.mp first] at stops

/-- Characters of a class are taken as far as they go. -/
theorem takeWhile_dropWhile_append {p : Char → Bool} (inside : ∀ c ∈ ds, p c = true)
    (ends : ∀ c ∈ rest.head?, p c = false) :
    (ds ++ rest).takeWhile p = ds ∧ (ds ++ rest).dropWhile p = rest := by
  rw [List.takeWhile_append_of_pos inside, List.dropWhile_append_of_pos inside]
  cases rest with
  | nil => simp
  | cons c cs => simp [ends c rfl]

theorem power?_append {sign : List Char} {negative : Bool} (signed : Sign sign negative) (some' : ds ≠ [])
    (digits : ∀ c ∈ ds, c.isDigit = true) :
    power? (sign ++ ds) =
      some (if negative then -(ofDigitChars 10 ds 0 : ℤ) else ofDigitChars 10 ds 0) := by
  have bare : ∀ c ∈ ds.head?, c ≠ '+' ∧ c ≠ '-' := fun c first =>
    ne_sign_of_isDigit (digits c (List.mem_of_head? first))
  rw [power?, takeSign_append signed bare]
  exact if_pos (isWholeNumber_iff.mpr ⟨some', digits⟩)

/-- What is read behind the digits is a power of ten. -/
theorem trailingPower?_eq_some_iff : trailingPower? rest = some e ↔ Power rest e := by
  constructor
  · intro read
    unfold trailingPower? at read
    split at read
    · cases read
      exact .none
    · next mark behind =>
      obtain ⟨marked, read⟩ := Option.ite_none_right_eq_some.mp read
      obtain ⟨sign, signed, split⟩ := exists_sign behind
      rw [power?] at read
      generalize takeSign behind = taken at *
      obtain ⟨negative, ds⟩ := taken
      obtain ⟨whole, read⟩ := Option.ite_none_right_eq_some.mp read
      obtain ⟨some', digits⟩ := isWholeNumber_iff.mp whole
      cases read
      rw [split]
      exact .written marked signed some' digits
  · intro power
    cases power with
    | none => rfl
    | written marked signed some' digits =>
      rw [trailingPower?, if_pos marked]
      exact power?_append signed some' digits

theorem Power.starts (power : Power rest e) : ∀ c ∈ rest.head?, c.isDigit = false ∧ c ≠ '.' := by
  cases power with
  | none => nofun
  | written marked =>
    intro c first
    cases first
    rcases marked with rfl | rfl <;> decide

end Digits

section Unsigned

variable {ds whole places rest cs : List Char} {negative : Bool} {x : Binary64}

theorem unsigned?_whole (digits : ∀ c ∈ ds, c.isDigit = true)
    (ends : ∀ c ∈ rest.head?, c.isDigit = false ∧ c ≠ '.') :
    unsigned? negative (ds ++ rest) = if ds = [] then none else
      (trailingPower? rest).map fun e => ofDecimal negative (ofDigitChars 10 ds 0) e := by
  obtain ⟨taken, left⟩ := takeWhile_dropWhile_append (p := isDigit) digits fun c first => (ends c first).1
  have unpointed : ∀ more, rest = '.' :: more → False := fun more same =>
    (ends '.' (by rw [same]; rfl)).2 rfl
  unfold unsigned?
  simp only [taken, left, List.isEmpty_nil, Bool.and_true, List.isEmpty_iff, List.append_nil,
    List.length_nil, Nat.cast_zero, sub_zero]
  rfl

theorem unsigned?_pointed (digits : ∀ c ∈ whole ++ places, c.isDigit = true)
    (ends : ∀ c ∈ rest.head?, c.isDigit = false) :
    unsigned? negative (whole ++ '.' :: (places ++ rest)) = if whole ++ places = [] then none else
      (trailingPower? rest).map fun e =>
        ofDecimal negative (ofDigitChars 10 (whole ++ places) 0) (e - places.length) := by
  obtain ⟨digits, digits'⟩ := List.forall_mem_append.mp digits
  have point : ∀ c ∈ ('.' :: (places ++ rest)).head?, isDigit c = false := fun _ first => by
    cases first
    rfl
  obtain ⟨taken, left⟩ := takeWhile_dropWhile_append (p := isDigit) digits point
  obtain ⟨taken', left'⟩ := takeWhile_dropWhile_append (p := isDigit) digits' ends
  unfold unsigned?
  simp only [taken, left, taken', left', Bool.and_eq_true, List.isEmpty_iff, List.append_eq_nil_iff]
  rfl

theorem roundsTo_places {digits k : ℕ} {e : ℤ} :
    ofDecimal negative digits (e - k) = x ↔ RoundsTo negative (digits / 10 ^ k * 10 ^ e) x := by
  have value : (digits * 10 ^ (e - k) : ℚ) = digits / 10 ^ k * 10 ^ e := by
    rw [zpow_sub₀ (by norm_num), zpow_natCast]
    ring
  rw [ofDecimal_eq_iff, value]

/-- Without a sign a number is read from digits with a power of ten behind them. -/
theorem unsigned?_eq_some_iff : unsigned? negative cs = some x ↔
    ∃ mantissa power v e, cs = mantissa ++ power ∧ Mantissa mantissa v ∧ Power power e ∧
      RoundsTo negative (v * 10 ^ e) x := by
  constructor
  · intro read
    obtain ⟨whole, behind, rfl, digits, ends⟩ := exists_digits cs
    by_cases point : ∃ more, behind = '.' :: more
    · obtain ⟨more, rfl⟩ := point
      obtain ⟨places, rest, rfl, digits', ends'⟩ := exists_digits more
      have all := List.forall_mem_append.mpr ⟨digits, digits'⟩
      rw [unsigned?_pointed all ends'] at read
      obtain ⟨some', read⟩ := Option.ite_none_left_eq_some.mp read
      obtain ⟨e, power, rounds⟩ := Option.map_eq_some_iff.mp read
      refine ⟨_, rest, _, e, ?_, .pointed some' all, trailingPower?_eq_some_iff.mp power,
        roundsTo_places.mp rounds⟩
      rw [List.append_assoc, List.cons_append]
    · have ends' : ∀ c ∈ behind.head?, c.isDigit = false ∧ c ≠ '.' := by
        intro c first
        refine ⟨ends c first, ?_⟩
        rintro rfl
        exact point ⟨_, List.eq_cons_of_mem_head? first⟩
      rw [unsigned?_whole digits ends'] at read
      obtain ⟨some', read⟩ := Option.ite_none_left_eq_some.mp read
      obtain ⟨e, power, rounds⟩ := Option.map_eq_some_iff.mp read
      exact ⟨_, behind, _, e, rfl, .whole some' digits, trailingPower?_eq_some_iff.mp power,
        ofDecimal_eq_iff.mp rounds⟩
  · rintro ⟨mantissa, power, v, e, rfl, digits, scaled, rounds⟩
    have ends := scaled.starts
    have read := trailingPower?_eq_some_iff.mpr scaled
    cases digits with
    | whole some' digits =>
      rw [unsigned?_whole digits ends, if_neg some', read]
      exact congrArg some (ofDecimal_eq_iff.mpr rounds)
    | pointed some' digits =>
      rw [List.append_assoc, List.cons_append,
        unsigned?_pointed digits fun c first => (ends c first).1, if_neg some', read]
      exact congrArg some (roundsTo_places.mpr rounds)

end Unsigned

section Whole

variable {cs word : List Char} {negative : Bool} {r : ℚ} {x : Binary64} {c : Char}

/-- A text is a word in letters of any case if it is the word in small letters. -/
theorem map_lowerChar_eq_iff {t : String} (small : lower t = t) :
    word.map lowerChar = t.toList ↔ EqUpToCase (.ofList word) t := by
  rw [← lower_eq_iff, small, ← String.toList_inj, toList_lower, String.toList_ofList]

theorem spellsInfinity_iff : SpellsInfinity word ↔
    word.map lowerChar = ['i', 'n', 'f'] ∨ word.map lowerChar = ['i', 'n', 'f', 'i', 'n', 'i', 't', 'y'] := by
  rw [SpellsInfinity, ← map_lowerChar_eq_iff (by decide), ← map_lowerChar_eq_iff (by decide)]
  rfl

theorem spellsNaN_iff : EqUpToCase (.ofList word) "nan" ↔ word.map lowerChar = ['n', 'a', 'n'] := by
  rw [← map_lowerChar_eq_iff (by decide)]
  rfl

/-- No word begins with a sign. -/
theorem takeSign_append_word {sign : List Char} {first : Char} {rest : List Char}
    (signed : Sign sign negative) (spelled : word.map lowerChar = first :: rest)
    (letter : first = 'i' ∨ first = 'n') : takeSign (sign ++ word) = (negative, word) := by
  refine takeSign_append signed fun c head => ?_
  obtain ⟨tail, rfl⟩ := List.head?_eq_some_iff.mp head
  obtain ⟨rfl, -⟩ := List.cons.inj spelled
  constructor <;> rintro rfl <;> revert letter <;> decide

/-- No numeral begins like a word. -/
theorem lowerChar_ne_of_starts (starts : c.isDigit = true ∨ c = '.') :
    lowerChar c ≠ 'i' ∧ lowerChar c ≠ 'n' := by
  rcases starts with digit | rfl
  · have range := isDigit_iff.mp digit
    have same : (lowerChar c).toNat = c.toNat := by rw [toNat_lowerChar, if_neg (by omega)]
    constructor <;> intro letter <;> rw [letter] at same
    · change 105 = _ at same
      omega
    · change 110 = _ at same
      omega
  · decide

theorem Mantissa.starts {mantissa : List Char} {v : ℚ} (digits : Mantissa mantissa v) :
    ∃ c rest, mantissa = c :: rest ∧ (c.isDigit = true ∨ c = '.') := by
  cases digits with
  | whole some' digits =>
    obtain ⟨c, rest, rfl⟩ := List.exists_cons_of_ne_nil some'
    exact ⟨c, rest, rfl, .inl (digits c List.mem_cons_self)⟩
  | @pointed whole places some' digits =>
    cases whole with
    | nil => exact ⟨'.', places, rfl, .inr rfl⟩
    | cons c whole => exact ⟨c, _, rfl, .inl (digits c List.mem_cons_self)⟩

/-- What is read is the spelling of a number. -/
theorem reads_of_ofChars? (read : ofChars? cs = some x) : Reads cs x := by
  obtain ⟨sign, signed, split⟩ := exists_sign cs
  unfold ofChars? at read
  generalize takeSign cs = taken at *
  obtain ⟨negative, body⟩ := taken
  simp only at read signed split
  rw [split]
  split at read
  next word =>
    cases read
    exact .infinite signed (spellsInfinity_iff.mpr word)
  next =>
  split at read
  next word =>
    cases read
    exact .undefined signed (spellsNaN_iff.mpr word)
  next =>
    obtain ⟨mantissa, power, v, e, rfl, digits, scaled, rounds⟩ := unsigned?_eq_some_iff.mp read
    exact .numeral (.mk signed digits scaled) rounds

theorem ofChars?_of_spellsRatio (numeral : SpellsRatio cs negative r) (rounds : RoundsTo negative r x) :
    ofChars? cs = some x := by
  obtain ⟨signed, digits, scaled⟩ := numeral
  have read := unsigned?_eq_some_iff.mpr ⟨_, _, _, _, rfl, digits, scaled, rounds⟩
  obtain ⟨c, rest, rfl, starts⟩ := digits.starts
  obtain ⟨noInfinity, noNaN⟩ := lowerChar_ne_of_starts starts
  have bare : c ≠ '+' ∧ c ≠ '-' := by
    rcases starts with digit | rfl
    · exact ne_sign_of_isDigit digit
    · decide
  rw [ofChars?, takeSign_append signed (by simpa using bare)]
  simpa [noInfinity, noNaN] using read

/-- Just the spellings of numbers are read, each as its number. -/
theorem ofChars?_eq_some_iff : ofChars? cs = some x ↔ Reads cs x := by
  refine ⟨reads_of_ofChars?, fun reads => ?_⟩
  cases reads with
  | numeral numeral rounds => exact ofChars?_of_spellsRatio numeral rounds
  | infinite signed spells =>
    have spelled := spellsInfinity_iff.mp spells
    have taken := spelled.elim (takeSign_append_word signed · (.inl rfl))
      (takeSign_append_word signed · (.inl rfl))
    rw [ofChars?, taken]
    exact if_pos spelled
  | undefined signed spells =>
    have spelled := spellsNaN_iff.mp spells
    rw [ofChars?, takeSign_append_word signed spelled (.inr rfl)]
    simp [spelled]

/-- A text that spells no number but an infinity, something undefined, or a numeral that is too large for
a number; and what it is read as. -/
inductive Exceeds : List Char → Binary64 → Prop
  | numeral {cs : List Char} {negative : Bool} {r : ℚ} (numeral : SpellsRatio cs negative r)
      (large : overflow ≤ r) : Exceeds cs (infinity negative)
  | infinite {sign word : List Char} {negative : Bool} (signed : Sign sign negative)
      (spells : SpellsInfinity word) : Exceeds (sign ++ word) (infinity negative)
  | undefined {sign word : List Char} {negative : Bool} (signed : Sign sign negative)
      (spells : EqUpToCase (.ofList word) "nan") : Exceeds (sign ++ word) nan

theorem isFinite_infinity (negative : Bool) : (infinity negative).isFinite = false := by
  cases negative <;> rfl

theorem exceeds_iff : Exceeds cs x ↔ Reads cs x ∧ x.isFinite = false := by
  constructor
  · intro exceeds
    cases exceeds with
    | numeral numeral large => exact ⟨.numeral numeral (.tooLarge large), isFinite_infinity _⟩
    | infinite signed spells => exact ⟨.infinite signed spells, isFinite_infinity _⟩
    | undefined signed spells => exact ⟨.undefined signed spells, rfl⟩
  · rintro ⟨reads, infinite⟩
    cases reads with
    | numeral numeral rounds =>
      cases rounds with
      | near sign finite => simp [finite] at infinite
      | tooLarge large => exact .numeral numeral large
    | infinite signed spells => exact .infinite signed spells
    | undefined signed spells => exact .undefined signed spells

/-- Only numerals that are not too large are read as finite numbers. -/
theorem Reads.exists_numeral (reads : Reads cs x) (finite : x.isFinite = true) :
    ∃ negative r, SpellsRatio cs negative r ∧ r < overflow ∧ RoundsTo negative r x := by
  cases reads with
  | numeral numeral rounds => exact ⟨_, _, numeral, rounds.isFinite_iff.mp finite, rounds⟩
  | infinite => simp [isFinite_infinity] at finite
  | undefined => exact absurd finite (by decide)

section Solid

theorem Sign.solid {sign : List Char} (signed : Sign sign negative) : ∀ c ∈ sign, isBlank c = false := by
  cases signed <;> simp [isBlank]

theorem solid_digits {ds : List Char} (digits : ∀ c ∈ ds, c.isDigit = true) :
    ∀ c ∈ ds, isBlank c = false := fun c member => isBlank_of_isDigit (digits c member)

theorem Mantissa.solid {mantissa : List Char} {v : ℚ} (digits : Mantissa mantissa v) :
    ∀ c ∈ mantissa, isBlank c = false := by
  cases digits with
  | whole _ digits => exact solid_digits digits
  | pointed _ digits =>
    obtain ⟨whole, places⟩ := List.forall_mem_append.mp (solid_digits digits)
    exact List.forall_mem_append.mpr ⟨whole, List.forall_mem_cons.mpr ⟨by decide, places⟩⟩

theorem Power.solid {power : List Char} {e : ℤ} (scaled : Power power e) :
    ∀ c ∈ power, isBlank c = false := by
  cases scaled with
  | none => nofun
  | written marked signed _ digits =>
    refine List.forall_mem_cons.mpr ⟨?_, List.forall_mem_append.mpr ⟨signed.solid, solid_digits digits⟩⟩
    rcases marked with rfl | rfl <;> decide

theorem solid_word {letters : List Char} (solid : letters.any isBlank = false)
    (spelled : word.map lowerChar = letters) : ∀ c ∈ word, isBlank c = false := by
  intro c member
  rw [← isBlank_lowerChar]
  exact Bool.eq_false_iff.mpr (List.any_eq_false.mp solid _ (spelled ▸ List.mem_map_of_mem member))

/-- There is no white space in what is read as a number. -/
theorem Reads.solid (reads : Reads cs x) : ∀ c ∈ cs, isBlank c = false := by
  cases reads with
  | numeral numeral =>
    obtain ⟨signed, digits, scaled⟩ := numeral
    exact List.forall_mem_append.mpr
      ⟨signed.solid, List.forall_mem_append.mpr ⟨digits.solid, scaled.solid⟩⟩
  | infinite signed spells =>
    refine List.forall_mem_append.mpr ⟨signed.solid, ?_⟩
    rcases spellsInfinity_iff.mp spells with spelled | spelled <;> exact solid_word rfl spelled
  | undefined signed spells =>
    exact List.forall_mem_append.mpr ⟨signed.solid, solid_word rfl (spellsNaN_iff.mp spells)⟩

end Solid

end Whole

end WalletSession.Binary64
