import Mathlib.Data.List.DropRight
import WalletSession.Text.Blank

/-! Texts with white space around them and with slashes at their end. Trimming takes exactly the padding
away: what it leaves is the one text without white space at its ends that gives the whole when it is
padded. In the same way there is one text without a slash at its end. -/
namespace WalletSession.Text

section Ends

variable {p : Char → Bool} {cs core after : List Char}

theorem dropEnd_append (cs : List Char) (inside : ∀ c ∈ after, p c = true) :
    dropEnd p (cs ++ after) = dropEnd p cs := by
  have turned : ∀ c ∈ after.reverse, p c = true := by
    intro c member
    exact inside c (List.mem_reverse.mp member)
  rw [dropEnd, dropEnd, List.reverse_append, List.dropWhile_append_of_pos turned]

theorem dropEnd_eq_self (ends : ∀ c ∈ cs.getLast?, p c = false) : dropEnd p cs = cs := by
  change cs.rdropWhile p = cs
  rw [List.rdropWhile_eq_self_iff]
  intro some
  simp [ends _ (List.getLast?_eq_some_getLast some)]

theorem dropEnd_append_dropped (p : Char → Bool) (cs : List Char) :
    ∃ after, (∀ c ∈ after, p c = true) ∧ cs = dropEnd p cs ++ after :=
  ⟨cs.rtakeWhile p, fun _ => List.mem_rtakeWhile_imp, List.rdropWhile_append_rtakeWhile.symm⟩

theorem last_dropEnd (p : Char → Bool) (cs : List Char) :
    ∀ c ∈ (dropEnd p cs).getLast?, p c = false := by
  intro c last
  obtain ⟨some, rfl⟩ := List.mem_getLast?_eq_getLast last
  exact Bool.eq_false_iff.mpr (List.rdropWhile_last_not p cs some)

/-- What was dropped is all of the class, and what is left ends outside of it. -/
theorem dropEnd_eq_iff :
    dropEnd p cs = core ↔
      (∃ after, (∀ c ∈ after, p c = true) ∧ cs = core ++ after) ∧
        ∀ c ∈ core.getLast?, p c = false := by
  constructor
  · rintro rfl
    exact ⟨dropEnd_append_dropped p cs, last_dropEnd p cs⟩
  · rintro ⟨⟨after, inside, rfl⟩, ends⟩
    rw [dropEnd_append core inside, dropEnd_eq_self ends]

end Ends

section Trimming

variable {s core : String}

/-- White space and nothing else. -/
def IsGap (s : String) : Prop := ∀ c ∈ s.toList, isBlank c = true

instance : Decidable (IsGap s) := List.decidableBAll _ _

/-- White space before a text and after it makes this one. -/
def Padded (core s : String) : Prop :=
  ∃ before after, IsGap before ∧ IsGap after ∧ s = before ++ core ++ after

/-- There is no white space at the ends. -/
structure IsTrimmed (s : String) : Prop where
  starts : ∀ c ∈ s.toList.head?, isBlank c = false
  ends : ∀ c ∈ s.toList.getLast?, isBlank c = false

-- A search through all characters there are would be an instance as well.
instance : Decidable (IsTrimmed s) :=
  haveI : Decidable (∀ c ∈ s.toList.head?, isBlank c = false) := Option.decidableForallMem _
  haveI : Decidable (∀ c ∈ s.toList.getLast?, isBlank c = false) := Option.decidableForallMem _
  decidable_of_iff
    ((∀ c ∈ s.toList.head?, isBlank c = false) ∧ ∀ c ∈ s.toList.getLast?, isBlank c = false)
    ⟨fun ⟨starts, ends⟩ => ⟨starts, ends⟩, fun trimmed => ⟨trimmed.starts, trimmed.ends⟩⟩

theorem Padded.refl (s : String) : Padded s s := by
  refine ⟨"", "", nofun, nofun, ?_⟩
  rw [String.empty_append, String.append_empty]

theorem isTrimmed_of_solid (solid : ∀ c ∈ s.toList, isBlank c = false) : IsTrimmed s where
  starts c first := solid c (List.mem_of_head? first)
  ends c last := solid c (List.mem_of_getLast? last)

theorem trim_of_padded (padded : Padded core s) : trim s = trim core := by
  obtain ⟨before, after, front, back, rfl⟩ := padded
  have gone : after.toList.dropWhile isBlank = [] := List.dropWhile_eq_nil_iff.mpr back
  rw [trim, trim, trimChars, trimChars, String.toList_append, String.toList_append,
    List.append_assoc, List.dropWhile_append_of_pos front, List.dropWhile_append, gone]
  split
  · next none => rw [List.isEmpty_iff.mp none]
  · rw [dropEnd_append _ back]

theorem trim_of_isTrimmed (trimmed : IsTrimmed s) : trim s = s := by
  have starts : s.toList.dropWhile isBlank = s.toList := by
    cases text : s.toList with
    | nil => rfl
    | cons c cs =>
      exact List.dropWhile_cons_of_neg (Bool.eq_false_iff.mp (trimmed.starts c (by rw [text]; rfl)))
  rw [trim, trimChars, starts, dropEnd_eq_self trimmed.ends, String.ofList_toList]

theorem padded_trim (s : String) : Padded (trim s) s := by
  obtain ⟨after, back, rest⟩ := dropEnd_append_dropped isBlank (s.toList.dropWhile isBlank)
  refine ⟨.ofList (s.toList.takeWhile isBlank), .ofList after, ?_, ?_, ?_⟩
  · intro c member
    rw [String.toList_ofList] at member
    exact List.mem_takeWhile_imp member
  · intro c member
    rw [String.toList_ofList] at member
    exact back c member
  · apply String.toList_inj.mp
    rw [String.toList_append, String.toList_append, trim, String.toList_ofList, String.toList_ofList,
      String.toList_ofList, trimChars, List.append_assoc, ← rest, List.takeWhile_append_dropWhile]

theorem isTrimmed_trim (s : String) : IsTrimmed (trim s) := by
  rw [trim, trimChars]
  constructor
  · intro c first
    rw [String.toList_ofList] at first
    obtain ⟨after, -, rest⟩ := dropEnd_append_dropped isBlank (s.toList.dropWhile isBlank)
    have head : (s.toList.dropWhile isBlank).head? = some c := by
      rw [rest, List.head?_append, Option.mem_def.mp first, Option.some_or]
    have outside := List.head?_dropWhile_not isBlank s.toList
    rwa [head] at outside
  · rw [String.toList_ofList]
    exact last_dropEnd isBlank _

/-- What trimming leaves. -/
theorem trim_eq_iff : trim s = core ↔ Padded core s ∧ IsTrimmed core := by
  constructor
  · rintro rfl
    exact ⟨padded_trim s, isTrimmed_trim s⟩
  · rintro ⟨padded, trimmed⟩
    rw [trim_of_padded padded, trim_of_isTrimmed trimmed]

theorem trim_eq_empty_iff : trim s = "" ↔ IsGap s := by
  rw [trim_eq_iff]
  constructor
  · rintro ⟨⟨before, after, front, back, rfl⟩, -⟩
    rw [String.append_empty, IsGap, String.toList_append, List.forall_mem_append]
    exact ⟨front, back⟩
  · intro gap
    refine ⟨⟨s, "", gap, nofun, ?_⟩, nofun, nofun⟩
    rw [String.append_empty, String.append_empty]

end Trimming

section Slashes

variable {s core : String}

def slashes (n : ℕ) : String := .ofList (List.replicate n '/')

/-- There is no slash at the end. -/
def EndsOpen (s : String) : Prop := ∀ c ∈ s.toList.getLast?, c ≠ '/'

instance : Decidable (EndsOpen s) := Option.decidableForallMem _

/-- What is left of a text without the slashes at its end. -/
theorem dropSlashes_eq_iff : dropSlashes s = core ↔ (∃ n, s = core ++ slashes n) ∧ EndsOpen core := by
  have chars : dropSlashes s = core ↔ dropEnd (· == '/') s.toList = core.toList := by
    rw [dropSlashes, ← String.toList_inj, String.toList_ofList]
  have ends : EndsOpen core ↔ ∀ c ∈ core.toList.getLast?, (c == '/') = false := by
    simp only [EndsOpen, beq_eq_false_iff_ne]
  rw [chars, dropEnd_eq_iff, ends]
  apply and_congr_left'
  constructor
  · rintro ⟨after, inside, same⟩
    have row : after = List.replicate after.length '/' :=
      List.eq_replicate_iff.mpr ⟨rfl, fun c member => eq_of_beq (inside c member)⟩
    refine ⟨after.length, String.toList_inj.mp ?_⟩
    rw [String.toList_append, slashes, String.toList_ofList, ← row, same]
  · rintro ⟨n, rfl⟩
    refine ⟨List.replicate n '/', fun c member => ?_, ?_⟩
    · exact beq_iff_eq.mpr (List.eq_of_mem_replicate member)
    · rw [String.toList_append, slashes, String.toList_ofList]

theorem endsOpen_dropSlashes (s : String) : EndsOpen (dropSlashes s) := (dropSlashes_eq_iff.mp rfl).2

theorem dropSlashes_append_slashes (s : String) : ∃ n, s = dropSlashes s ++ slashes n :=
  (dropSlashes_eq_iff.mp rfl).1

theorem head_dropSlashes {c : Char} (first : c ∈ (dropSlashes s).toList.head?) :
    c ∈ s.toList.head? := by
  obtain ⟨n, same⟩ := dropSlashes_append_slashes s
  rw [same, String.toList_append, List.head?_append, Option.mem_def.mp first, Option.some_or]
  rfl

theorem dropSlashes_of_endsOpen (ends : EndsOpen s) : dropSlashes s = s :=
  dropSlashes_eq_iff.mpr ⟨⟨0, String.append_empty.symm⟩, ends⟩

theorem dropSlashes_append (s : String) (n : ℕ) : dropSlashes (s ++ slashes n) = dropSlashes s := by
  unfold dropSlashes
  rw [String.toList_append, slashes, String.toList_ofList, dropEnd_append]
  intro c member
  exact beq_iff_eq.mpr (List.eq_of_mem_replicate member)

theorem dropSlashes_dropSlashes (s : String) : dropSlashes (dropSlashes s) = dropSlashes s :=
  dropSlashes_of_endsOpen (endsOpen_dropSlashes s)

end Slashes

section Frames

variable {s address url : String} {n : ℕ}

/-- There is no white space at the ends and no slash at the end. -/
structure IsBare (s : String) : Prop extends IsTrimmed s where
  endsOpen : EndsOpen s

theorem IsTrimmed.append_slashes (trimmed : IsTrimmed s) : IsTrimmed (s ++ slashes n) := by
  have solid : ∀ c ∈ (slashes n).toList, isBlank c = false := by
    intro c member
    rw [slashes, String.toList_ofList] at member
    rw [List.eq_of_mem_replicate member]
    decide
  have row := isTrimmed_of_solid solid
  constructor
  · intro c first
    rw [String.toList_append, List.head?_append, Option.mem_def, Option.or_eq_some_iff] at first
    rcases first with first | ⟨-, first⟩
    · exact trimmed.starts c first
    · exact row.starts c first
  · intro c last
    rw [String.toList_append, List.getLast?_append, Option.mem_def, Option.or_eq_some_iff] at last
    rcases last with last | ⟨-, last⟩
    · exact row.ends c last
    · exact trimmed.ends c last

/-- There is nothing to trim if nothing is gone after trimming and dropping slashes. -/
theorem isTrimmed_of_length (same : (dropSlashes (trim s)).length = s.length) : IsTrimmed s := by
  obtain ⟨before, after, -, -, padded⟩ := padded_trim s
  obtain ⟨n, dropped⟩ := dropSlashes_append_slashes (trim s)
  have whole := congrArg String.length padded
  have kept := congrArg String.length dropped
  rw [String.length_append, String.length_append] at whole
  rw [String.length_append] at kept
  have front : before = "" := String.length_eq_zero_iff.mp (by omega)
  have back : after = "" := String.length_eq_zero_iff.mp (by omega)
  rw [front, back, String.empty_append, String.append_empty] at padded
  exact padded ▸ isTrimmed_trim s

/-- An address with slashes after it, and white space around both, makes this text. -/
def Framed (address url : String) : Prop := ∃ n, Padded (address ++ slashes n) url

theorem framed_dropSlashes_trim (url : String) : Framed (dropSlashes (trim url)) url := by
  obtain ⟨n, same⟩ := dropSlashes_append_slashes (trim url)
  exact ⟨n, same ▸ padded_trim url⟩

theorem dropSlashes_trim_of_framed (bare : IsBare address) (framed : Framed address url) :
    dropSlashes (trim url) = address := by
  obtain ⟨n, padded⟩ := framed
  have trimmed : trim url = address ++ slashes n :=
    trim_eq_iff.mpr ⟨padded, bare.toIsTrimmed.append_slashes⟩
  rw [trimmed, dropSlashes_append, dropSlashes_of_endsOpen bare.endsOpen]

end Frames

end WalletSession.Text
