import Mathlib.Data.List.DropRight
import WalletSession.Json.Tree
import WalletSession.Proofs.Json.Numerals
import WalletSession.Text.Blank

/-! White space around a JSON text. Some characters that Unicode calls white space are no white space
of JSON, but a text that has them at its ends is no JSON; so trimming a JSON text changes nothing of
what it says. -/
namespace WalletSession

variable {c d : Char}

theorem ne_of_isBlank (blank : isBlank c = true) (solid : isBlank d = false) : c ≠ d := by
  rintro rfl
  simp [solid] at blank

namespace Json

theorem digit?_of_isBlank (blank : isBlank c = true) : digit? c = none := by
  unfold digit?
  split
  · next digit =>
    obtain ⟨least, most⟩ := Text.isDigit_iff.mp digit
    simp [isBlank] at blank
    omega
  · rfl

theorem extend_of_isBlank (blank : isBlank c = true) (n : Numeral) (part : NumeralPart) :
    n.extend part c = none := by
  have solid {d : Char} := ne_of_isBlank (d := d) blank
  cases part <;>
    simp (disch := decide) [Numeral.extend, digit?_of_isBlank blank, Numeral.afterDigits, solid]

namespace Scan

variable {s next : Scan} {cs : List Char} {ts : List Token}

/-- Outside of strings a blank is white space of JSON or nothing. -/
theorem begin_of_isBlank (blank : isBlank c = true) :
    s.begin c = if isGap c then some (s.enter .between) else none := by
  have solid {d : Char} := ne_of_isBlank (d := d) blank
  unfold begin
  simp (disch := decide) only [solid, if_false, extend_of_isBlank blank]

/-- What is still to come of a word has no blanks in it. -/
def IsSolid (s : Scan) : Prop :=
  match s.mode with
  | .word left _ => left.any isBlank = false
  | _ => True

theorem isSolid_ite {p : Prop} [Decidable p] {x y : Option Scan} (yes : ∀ n ∈ x, n.IsSolid)
    (no : ∀ n ∈ y, n.IsSolid) : ∀ n ∈ if p then x else y, n.IsSolid := by
  split
  · exact yes
  · exact no

theorem isSolid_word {left : List Char} {t : Token} (letters : left.any isBlank = false) :
    ∀ n ∈ some (s.enter (.word left t)), n.IsSolid := by
  rintro _ ⟨⟩
  exact letters

theorem isSolid_other {mode : Mode} {tokens : List Token} (other : ∀ left t, mode ≠ .word left t) :
    ∀ n ∈ some (Scan.mk mode tokens), n.IsSolid := by
  rintro _ ⟨⟩
  unfold IsSolid
  split
  · next same => exact absurd same (other _ _)
  · trivial

theorem isSolid_begin : ∀ n ∈ s.begin c, n.IsSolid := by
  unfold begin
  -- White space, the six signs and the quotation mark; three words; a number.
  iterate 8 refine isSolid_ite (isSolid_other nofun) ?_
  iterate 3 refine isSolid_ite (isSolid_word (by decide)) ?_
  refine isSolid_ite (isSolid_other nofun) ?_
  split
  · exact isSolid_other nofun
  · nofun

theorem IsSolid.step (solid : s.IsSolid) : ∀ n ∈ s.step c, n.IsSolid := by
  unfold Scan.step
  split
  · exact isSolid_begin
  · nofun
  · exact isSolid_ite (isSolid_other nofun) nofun
  · next next left t mode =>
    unfold IsSolid at solid
    rw [mode] at solid
    exact isSolid_ite (isSolid_word (Bool.or_eq_false_iff.mp solid).2) nofun
  · exact isSolid_ite (isSolid_other nofun)
      (isSolid_ite (isSolid_other nofun) (isSolid_ite nofun (isSolid_other nofun)))
  · refine isSolid_ite (isSolid_other nofun) fun n member => ?_
    obtain ⟨e, _, rfl⟩ := Option.map_eq_some_iff.mp member
    trivial
  · split
    · nofun
    · exact isSolid_ite (isSolid_other nofun) (isSolid_other nofun)
  · split
    · exact isSolid_other nofun
    · exact isSolid_ite isSolid_begin nofun

theorem IsSolid.run (solid : s.IsSolid) (ran : s.run cs = some next) : next.IsSolid := by
  induction cs generalizing s with
  | nil =>
    cases ran
    exact solid
  | cons c cs ih =>
    rw [Scan.run] at ran
    cases stepped : s.step c with
    | none => simp [stepped] at ran
    | some between =>
      rw [stepped] at ran
      exact ih (solid.step _ stepped) ran

/-- A text that may end after a blank may end before it. -/
theorem finish_of_isBlank (solid : s.IsSolid) (blank : isBlank c = true)
    (stepped : s.step c = some next) (finished : next.finish = some ts) : s.finish = some ts := by
  obtain ⟨mode, tokens⟩ := s
  have other {d : Char} := ne_of_isBlank (d := d) blank
  cases mode with
  | between =>
    simp only [step, begin_of_isBlank blank, Option.ite_none_right_eq_some] at stepped
    obtain ⟨-, ⟨⟩⟩ := stepped
    exact finished
  | word left t =>
    cases left with
    | nil => cases stepped
    | cons first left =>
      have apart : c ≠ first := other (Bool.or_eq_false_iff.mp solid).1
      cases left <;> simp [step, apart] at stepped
  | quoted pieces =>
    simp (disch := decide) only [step, other, if_false] at stepped
    split at stepped
    · cases stepped
    · cases stepped
      cases finished
  | escape pieces =>
    simp (disch := decide) only [step, other, if_false] at stepped
    obtain ⟨e, _, rfl⟩ := Option.map_eq_some_iff.mp stepped
    cases finished
  | code pieces left value =>
    simp only [step] at stepped
    split at stepped
    · cases stepped
    · split at stepped <;> cases stepped <;> cases finished
  | number n part =>
    simp only [step, extend_of_isBlank blank] at stepped
    split at stepped
    · next complete =>
      simp only [begin_of_isBlank blank, Option.ite_none_right_eq_some] at stepped
      obtain ⟨-, ⟨⟩⟩ := stepped
      exact (if_pos complete).trans finished
    · cases stepped

end Scan

variable {cs : List Char} {ts : List Token}

theorem tokens?_dropWhile (read : tokens? cs = some ts) :
    tokens? (cs.dropWhile isBlank) = some ts := by
  induction cs with
  | nil => exact read
  | cons c cs ih =>
    cases blank : isBlank c with
    | false => rwa [List.dropWhile_cons_of_neg (by simp [blank])]
    | true =>
      rw [List.dropWhile_cons_of_pos blank]
      refine ih ?_
      have first : (Scan.mk .between []).step c = if Scan.isGap c then some ⟨.between, []⟩ else none :=
        Scan.begin_of_isBlank blank
      unfold tokens? at read
      rw [Scan.run, first] at read
      split at read
      · next next same =>
        obtain ⟨-, ⟨⟩⟩ := Option.ite_none_right_eq_some.mp same
        exact read
      · cases read

theorem tokens?_dropEnd (read : tokens? cs = some ts) :
    tokens? (Text.dropEnd isBlank cs) = some ts := by
  change tokens? (cs.rdropWhile isBlank) = some ts
  induction cs using List.reverseRecOn with
  | nil => exact read
  | append_singleton cs c ih =>
    cases blank : isBlank c with
    | false => rwa [List.rdropWhile_concat_neg _ _ _ (by simp [blank])]
    | true =>
      rw [List.rdropWhile_concat_pos _ _ _ blank]
      refine ih ?_
      obtain ⟨last, ran, finished⟩ := Option.bind_eq_some_iff.mp read
      rw [Scan.run_append] at ran
      obtain ⟨s, ran, stepped⟩ := Option.bind_eq_some_iff.mp ran
      have fresh : (Scan.mk .between []).IsSolid := trivial
      have solid := fresh.run ran
      have stepped : s.step c = some last := by
        rw [Scan.run] at stepped
        split at stepped
        · next same => rwa [Scan.run, ← same] at stepped
        · cases stepped
      rw [tokens?, ran]
      exact Scan.finish_of_isBlank solid blank stepped finished

/-- A text with its white space cut off has the same tokens. -/
theorem tokens?_trimChars (read : tokens? cs = some ts) : tokens? (Text.trimChars cs) = some ts :=
  tokens?_dropEnd (tokens?_dropWhile read)

end Json

end WalletSession
