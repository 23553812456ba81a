import WalletSession.Text.Blank
import WalletSession.Text.Digits

/-! Rows of decimal digits. The digits of a number are read as the number, and no digit is white
space. -/
namespace WalletSession.Text

variable {c : Char}

theorem isDigit_iff : isDigit c = true ↔ 48 ≤ c.toNat ∧ c.toNat ≤ 57 := by
  simp only [isDigit, Bool.and_eq_true, decide_eq_true_eq, Char.le_def, UInt32.le_iff_toNat_le]
  rfl

theorem isBlank_of_isDigit (digit : c.isDigit = true) : isBlank c = false := by
  rw [Char.isDigit_iff_toNat] at digit
  obtain ⟨least, most⟩ := digit
  change 48 ≤ c.toNat at least
  change c.toNat ≤ 57 at most
  grind [isBlank]

theorem isWholeNumber_iff {digits : List Char} :
    isWholeNumber digits = true ↔ digits ≠ [] ∧ ∀ c ∈ digits, c.isDigit = true := by
  rw [isWholeNumber, Bool.and_eq_true, Bool.not_eq_true', List.isEmpty_eq_false_iff, List.all_eq_true]
  rfl

theorem digitsValue_repr (n : Nat) : digitsValue n.repr.toList = n := by
  rw [Nat.toList_repr]
  exact Nat.ofDigitChars_ten_toDigits

theorem isWholeNumber_repr (n : Nat) : isWholeNumber n.repr.toList = true := by
  have digits (c : Char) (member : c ∈ Nat.toDigits 10 n) : isDigit c = true :=
    Nat.isDigit_of_mem_toDigits (by decide) (by decide) member
  simpa [isWholeNumber, Nat.toDigits_ne_nil] using digits

end WalletSession.Text
