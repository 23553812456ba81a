import Mathlib.Data.List.Basic
import Mathlib.Tactic.IntervalCases
import WalletSession.Text.Quoted

/-! A quoted text determines the text. What stands for one character is never the beginning of what
stands for another, so that the characters are found again one after the other. -/
namespace WalletSession.Text

variable {c d : Char} {n m : Nat} {xs ys : List Char}

theorem digitChar_inj : ∀ n < 16, ∀ m < 16, Nat.digitChar n = Nat.digitChar m → n = m := by decide

theorem digitChar_ne_brace : ∀ n < 16, Nat.digitChar n ≠ '\x7d' := by decide

/-- Different numbers have different digits. -/
theorem toDigits_injective : Function.Injective (Nat.toDigits 16) := by
  intro n
  induction n using Nat.strongRecOn with
  | ind n ih =>
    intro m same
    rcases lt_or_ge n 16 with small | large <;> rcases lt_or_ge m 16 with small' | large'
    · rw [Nat.toDigits_of_lt_base small, Nat.toDigits_of_lt_base small', List.cons.injEq] at same
      exact digitChar_inj n small m small' same.1
    · have length := congrArg List.length same
      rw [Nat.toDigits_of_lt_base small, Nat.toDigits_of_base_le (by decide) large'] at length
      simp at length
    · have length := congrArg List.length same
      rw [Nat.toDigits_of_lt_base small', Nat.toDigits_of_base_le (by decide) large] at length
      simp at length
    · rw [Nat.toDigits_of_base_le (by decide) large, Nat.toDigits_of_base_le (by decide) large'] at same
      obtain ⟨front, last⟩ := List.append_inj' same rfl
      have quotient := ih (n / 16) (by omega) front
      have rest := digitChar_inj (n % 16) (by omega) (m % 16) (by omega) (List.cons.inj last).1
      omega

theorem brace_notMem_toDigits (n : Nat) : '\x7d' ∉ Nat.toDigits 16 n := by
  induction n using Nat.strongRecOn with
  | ind n ih =>
    rcases lt_or_ge n 16 with small | large
    · rw [Nat.toDigits_of_lt_base small, List.mem_singleton]
      exact (digitChar_ne_brace n small).symm
    · rw [Nat.toDigits_of_base_le (by decide) large, List.mem_append, List.mem_singleton, not_or]
      exact ⟨ih (n / 16) (by omega), (digitChar_ne_brace (n % 16) (by omega)).symm⟩

/-- What stands before the first brace, and what follows it. -/
theorem append_brace_inj {v w : List Char} (clear : '\x7d' ∉ v) (clear' : '\x7d' ∉ w)
    (same : v ++ '\x7d' :: xs = w ++ '\x7d' :: ys) : v = w ∧ xs = ys := by
  induction v generalizing w with
  | nil =>
    cases w with
    | nil => exact ⟨rfl, (List.cons.inj same).2⟩
    | cons c w => exact absurd (List.cons.inj same).1 (List.ne_of_not_mem_cons clear')
  | cons c v ih =>
    cases w with
    | nil => exact absurd (List.cons.inj same).1.symm (List.ne_of_not_mem_cons clear)
    | cons d w =>
      obtain ⟨rfl, tail⟩ := List.cons.inj same
      obtain ⟨rfl, rest⟩ :=
        ih (List.not_mem_of_not_mem_cons clear) (List.not_mem_of_not_mem_cons clear') tail
      exact ⟨rfl, rest⟩

/-- Characters and the letters that stand for them behind a backslash. -/
def letters : List (Char × Char) :=
  [('"', '"'), ('\\', '\\'), ('\t', 't'), ('\n', 'n'), ('\r', 'r'), ('\x00', '0')]

/-- The three ways in which a character is written. -/
inductive QuotedAs (c : Char) : List Char → Prop
  | letter {l : Char} (known : (c, l) ∈ letters) : QuotedAs c ['\\', l]
  | code : QuotedAs c ('\\' :: 'u' :: '\x7b' :: Nat.toDigits 16 c.toNat ++ ['\x7d'])
  | plain (other : c ≠ '\\') : QuotedAs c [c]

theorem quotedAs_quotedChar (c : Char) : QuotedAs c (quotedChar c) := by
  unfold quotedChar
  split
  next same => exact .letter (by simp [same, letters])
  next =>
  split
  next same => exact .letter (by simp [same, letters])
  next other =>
  split
  next same => exact .letter (by simp [same, letters])
  next =>
  split
  next same => exact .letter (by simp [same, letters])
  next =>
  split
  next same => exact .letter (by simp [same, letters])
  next =>
  split
  next same => exact .letter (by simp [same, letters])
  next =>
  split
  next => exact .code
  next => exact .plain other

theorem letters_inj : ∀ p ∈ letters, ∀ q ∈ letters, p.2 = q.2 → p.1 = q.1 := by decide

theorem letters_ne_u : ∀ p ∈ letters, p.2 ≠ 'u' := by decide

/-- What stands for a character ends where the next one begins. -/
theorem QuotedAs.append_inj {v w : List Char} (as : QuotedAs c v) (as' : QuotedAs d w)
    (same : v ++ xs = w ++ ys) : c = d ∧ xs = ys := by
  cases as with
  | letter known =>
    cases as' with
    | letter known' =>
      simp only [List.cons_append, List.nil_append, List.cons.injEq, true_and] at same
      exact ⟨letters_inj _ known _ known' same.1, same.2⟩
    | code =>
      simp only [List.cons_append, List.nil_append, List.cons.injEq, true_and] at same
      exact absurd same.1 (letters_ne_u _ known)
    | plain other => exact absurd (List.cons.inj same).1.symm other
  | code =>
    cases as' with
    | letter known' =>
      simp only [List.cons_append, List.nil_append, List.cons.injEq, true_and] at same
      exact absurd same.1.symm (letters_ne_u _ known')
    | code =>
      simp only [List.cons_append, List.append_assoc, List.nil_append, List.cons.injEq, true_and] at same
      obtain ⟨digits, rest⟩ := append_brace_inj (brace_notMem_toDigits _) (brace_notMem_toDigits _) same
      exact ⟨Char.toNat_inj.mp (toDigits_injective digits), rest⟩
    | plain other => exact absurd (List.cons.inj same).1.symm other
  | plain other =>
    cases as' with
    | letter | code => exact absurd (List.cons.inj same).1 other
    | plain => exact List.cons.inj same

theorem QuotedAs.ne_nil {v : List Char} (as : QuotedAs c v) : v ≠ [] := by
  cases as <;> exact List.cons_ne_nil _ _

theorem flatMap_quotedChar_inj {cs ds : List Char}
    (same : cs.flatMap quotedChar = ds.flatMap quotedChar) : cs = ds := by
  induction cs generalizing ds with
  | nil =>
    cases ds with
    | nil => rfl
    | cons d ds => exact absurd (List.append_eq_nil_iff.mp same.symm).1 (quotedAs_quotedChar d).ne_nil
  | cons c cs ih =>
    cases ds with
    | nil => exact absurd (List.append_eq_nil_iff.mp same).1 (quotedAs_quotedChar c).ne_nil
    | cons d ds =>
      obtain ⟨rfl, rest⟩ := (quotedAs_quotedChar c).append_inj (quotedAs_quotedChar d) same
      rw [ih rest]

/-- A text is found again in what is written for it. -/
theorem quoted_injective : Function.Injective quoted := by
  intro s t same
  have within := List.append_cancel_right (List.cons.inj (String.ofList_injective same)).2
  exact String.toList_injective (flatMap_quotedChar_inj within)

end WalletSession.Text
