import Mathlib.Data.List.Forall2
import WalletSession.Proofs.Text.Trimmed
import WalletSession.Text.Case

/-! Texts that differ in the case of ASCII letters only. Small letters are a normal form for them, and
neither white space nor a slash depends on case. -/
namespace WalletSession.Text

/-- The same character, or the same letter of ASCII in the other case. -/
inductive SameLetter : Char → Char → Prop
  | itself (c : Char) : SameLetter c c
  | small {c d : Char} (letter : 'A' ≤ c ∧ c ≤ 'Z') (shifted : d.toNat = c.toNat + 32) :
      SameLetter c d
  | capital {c d : Char} (letter : 'A' ≤ d ∧ d ≤ 'Z') (shifted : c.toNat = d.toNat + 32) :
      SameLetter c d

/-- The texts are equal up to the case of ASCII letters. -/
def EqUpToCase (s t : String) : Prop := List.Forall₂ SameLetter s.toList t.toList

variable {c d : Char} {s t : String}

theorem isCapital_iff : ('A' ≤ c ∧ c ≤ 'Z') ↔ 65 ≤ c.toNat ∧ c.toNat ≤ 90 := Iff.rfl

theorem toNat_lowerChar :
    (lowerChar c).toNat = if 65 ≤ c.toNat ∧ c.toNat ≤ 90 then c.toNat + 32 else c.toNat := by
  unfold lowerChar
  split
  · next capital =>
    rw [isCapital_iff] at capital
    have valid : (c.toNat + 32).isValidChar := Or.inl (by omega)
    rw [if_pos capital, Char.ofNat, dif_pos valid]
    rfl
  · next other => rw [if_neg (mt isCapital_iff.mpr other)]

theorem lowerChar_eq_iff : lowerChar c = lowerChar d ↔ SameLetter c d := by
  rw [← Char.toNat_inj, toNat_lowerChar, toNat_lowerChar]
  constructor
  · intro lowered
    split at lowered <;> split at lowered
    · have same : c.toNat = d.toNat := by omega
      exact Char.toNat_inj.mp same ▸ .itself c
    · next capital _ => exact .small (isCapital_iff.mpr capital) lowered.symm
    · next capital => exact .capital (isCapital_iff.mpr capital) lowered
    · exact Char.toNat_inj.mp lowered ▸ .itself c
  · intro same
    cases same with
    | itself => rfl
    | small letter shifted =>
      rw [isCapital_iff] at letter
      rw [if_pos letter, if_neg (by omega), shifted]
    | capital letter shifted =>
      rw [isCapital_iff] at letter
      rw [if_pos letter, if_neg (by omega), shifted]

theorem lower_eq_iff : lower s = lower t ↔ EqUpToCase s t := by
  rw [lower, lower, ← String.toList_inj, String.toList_ofList, String.toList_ofList, EqUpToCase,
    ← List.forall₂_eq_eq_eq, List.forall₂_map_left_iff, List.forall₂_map_right_iff]
  simp only [lowerChar_eq_iff]

instance : Decidable (EqUpToCase s t) := decidable_of_iff _ lower_eq_iff

theorem isBlank_lowerChar (c : Char) : isBlank (lowerChar c) = isBlank c := by
  rw [isBlank, isBlank, toNat_lowerChar]
  split
  · grind
  · rfl

theorem lowerChar_eq_slash_iff : lowerChar c = '/' ↔ c = '/' := by
  rw [← Char.toNat_inj, ← Char.toNat_inj, toNat_lowerChar]
  change _ = 47 ↔ _ = 47
  split <;> omega

section Lower

theorem toList_lower (s : String) : (lower s).toList = s.toList.map lowerChar := String.toList_ofList

theorem length_lower (s : String) : (lower s).length = s.length := by
  rw [← String.length_toList, toList_lower, List.length_map, String.length_toList]

theorem isGap_lower : IsGap (lower s) ↔ IsGap s := by
  simp [IsGap, toList_lower, isBlank_lowerChar]

theorem isTrimmed_lower : IsTrimmed (lower s) ↔ IsTrimmed s := by
  have starts : (∀ c ∈ (lower s).toList.head?, isBlank c = false) ↔
      ∀ c ∈ s.toList.head?, isBlank c = false := by
    simp [toList_lower, isBlank_lowerChar]
  have ends : (∀ c ∈ (lower s).toList.getLast?, isBlank c = false) ↔
      ∀ c ∈ s.toList.getLast?, isBlank c = false := by
    simp [toList_lower, isBlank_lowerChar]
  exact ⟨fun trimmed => ⟨starts.mp trimmed.starts, ends.mp trimmed.ends⟩,
    fun trimmed => ⟨starts.mpr trimmed.starts, ends.mpr trimmed.ends⟩⟩

theorem endsOpen_lower : EndsOpen (lower s) ↔ EndsOpen s := by
  simp [EndsOpen, toList_lower, lowerChar_eq_slash_iff]

theorem lower_append (s t : String) : lower (s ++ t) = lower s ++ lower t := by
  apply String.toList_inj.mp
  simp [toList_lower]

/-- It makes no difference whether white space or capitals go first. -/
theorem trim_lower (s : String) : trim (lower s) = lower (trim s) := by
  obtain ⟨⟨before, after, front, back, same⟩, trimmed⟩ := trim_eq_iff.mp (Eq.refl (trim s))
  refine trim_eq_iff.mpr ⟨⟨lower before, lower after, ?_, ?_, ?_⟩, ?_⟩
  · exact isGap_lower.mpr front
  · exact isGap_lower.mpr back
  · rw [← lower_append, ← lower_append, ← same]
  · exact isTrimmed_lower.mpr trimmed

/-- The texts are equal up to white space around them and the case of letters. -/
def EqUpToPadding (s t : String) : Prop :=
  ∃ s' t', Padded s' s ∧ Padded t' t ∧ EqUpToCase s' t'

theorem lower_trim_eq_iff : lower (trim s) = lower (trim t) ↔ EqUpToPadding s t := by
  constructor
  · intro same
    exact ⟨trim s, trim t, padded_trim s, padded_trim t, lower_eq_iff.mp same⟩
  · rintro ⟨s', t', around, around', same⟩
    rw [trim_of_padded around, trim_of_padded around', ← trim_lower, ← trim_lower,
      lower_eq_iff.mpr same]

theorem isBare_lower : IsBare (lower s) ↔ IsBare s := by
  constructor
  · rintro ⟨trimmed, ends⟩
    exact ⟨isTrimmed_lower.mp trimmed, endsOpen_lower.mp ends⟩
  · rintro ⟨trimmed, ends⟩
    exact ⟨isTrimmed_lower.mpr trimmed, endsOpen_lower.mpr ends⟩

theorem EqUpToCase.isBare (same : EqUpToCase s t) (bare : IsBare t) : IsBare s := by
  have lowered : IsBare (lower t) := isBare_lower.mpr bare
  rw [← lower_eq_iff.mpr same] at lowered
  exact isBare_lower.mp lowered

/-- An address in letters of any case, framed. -/
def Decorates (address url : String) : Prop :=
  ∃ spelled, EqUpToCase spelled address ∧ Framed spelled url

end Lower

end WalletSession.Text
