import WalletSession.Json.Printer
import WalletSession.Json.Token

/-! Reading back what the printer writes, character by character. What was read before makes no
difference, a value ends where the next comma or bracket begins, and a string comes back as it
was. -/
namespace WalletSession.Json

namespace Scan

variable {s s' : Scan} {c : Char} {cs : List Char} {ts : List Token}

/-- The same place, with more tokens read before. -/
def behind (done : List Token) (s : Scan) : Scan := { s with tokens := s.tokens ++ done }

@[simp] theorem behind_emit (done : List Token) (t : Token) :
    (s.behind done).emit t = (s.emit t).behind done := rfl

@[simp] theorem behind_enter (done : List Token) (mode : Mode) :
    (s.behind done).enter mode = (s.enter mode).behind done := rfl

theorem begin_behind (done : List Token) :
    (s.behind done).begin c = (s.begin c).map (behind done) := by
  unfold begin
  simp only [behind_emit, behind_enter, apply_ite (Option.map (behind done)), Option.map_some]
  cases (Numeral.start false).extend .sign c <;> rfl

theorem step_behind (done : List Token) :
    (s.behind done).step c = (s.step c).map (behind done) := by
  have mode : (s.behind done).mode = s.mode := rfl
  unfold step
  rw [mode]
  split
  · exact begin_behind done
  · rfl
  · split <;> rfl
  · split <;> rfl
  · simp only [behind_emit, behind_enter, apply_ite (Option.map (behind done)), Option.map_some,
      Option.map_none]
  · split
    · rfl
    · cases escaped? c <;> rfl
  · split
    · rfl
    · split <;> rfl
  · split
    · rfl
    · split
      · rw [behind_emit, begin_behind]
      · rfl

theorem run_behind (done : List Token) :
    (s.behind done).run cs = (s.run cs).map (behind done) := by
  induction cs generalizing s with
  | nil => rfl
  | cons c cs ih =>
    simp only [run, step_behind]
    cases s.step c with
    | none => rfl
    | some next => exact ih

end Scan

/-- A comma or a bracket that closes ends any value before it. -/
def endsValue (c : Char) : Bool := c == ',' || c == '}' || c == ']'

theorem extend_end {c : Char} (ends : endsValue c = true) (n : Numeral) {part : NumeralPart}
    (complete : part.complete = true) : n.extend part c = none := by
  simp only [endsValue, Bool.or_eq_true, beq_iff_eq] at ends
  rcases ends with (rfl | rfl) | rfl <;> cases part <;> rfl

namespace Scan

variable {s : Scan} {c : Char} {cs rest : List Char} {ts : List Token}

/-- Wherever a value may end, the next character is read as if it had ended before. -/
theorem step_of_finish (finished : s.finish = some ts) (ends : endsValue c = true) :
    s.step c = (Scan.mk .between ts.reverse).step c := by
  obtain ⟨mode, tokens⟩ := s
  unfold finish at finished
  split at finished
  next between =>
    cases between
    cases finished
    rw [List.reverse_reverse]
  next n part number =>
    cases number
    split at finished
    next complete =>
      cases finished
      rw [List.reverse_reverse]
      simp only [step, extend_end ends n complete, complete, if_true]
      rfl
    next => contradiction
  next => contradiction

/-- A value is read in its place as it is read alone. -/
theorem run_value (read : tokens? cs = some ts) (ends : endsValue c = true) (done : List Token) :
    (Scan.mk .between done).run (cs ++ c :: rest) =
      (Scan.mk .between (ts.reverse ++ done)).run (c :: rest) := by
  obtain ⟨s, ran, finished⟩ := Option.bind_eq_some_iff.mp read
  have start : Scan.mk .between done = (Scan.mk .between []).behind done := rfl
  have stop : Scan.mk .between (ts.reverse ++ done) = (Scan.mk .between ts.reverse).behind done := rfl
  rw [start, stop, run_append, run_behind, ran]
  simp only [Option.map_some, Option.bind_some, run, step_behind, step_of_finish finished ends]

end Scan

/-- A control without a letter of its own is written by its code. -/
def isCoded (c : Char) : Bool :=
  c.toNat < 0x20 && !List.contains ['\n', '\t', '\r', '\x08', '\x0c'] c

/-- What is read of a character of a string. -/
def pieceOf (c : Char) : Piece := if isCoded c then .unit c.toNat else .plain c

def pieces (s : String) : List Piece := s.toList.map pieceOf

theorem hexValue?_hexDigit (n : Nat) : Text.hexValue? (hexDigit n) = some (n % 16) := by
  have digits : ∀ k < 16, Text.hexValue? (hexDigit k) = some k := by decide
  have small : hexDigit n = hexDigit (n % 16) := by rw [hexDigit, hexDigit, Nat.mod_mod]
  rw [small, digits _ (Nat.mod_lt _ (by decide))]

namespace Scan

variable {done : List Token} {acc : List Piece} {rest : List Char}

theorem run_escapeChar (c : Char) :
    (Scan.mk (.quoted acc) done).run (escapeChar c ++ rest) =
      (Scan.mk (.quoted (pieceOf c :: acc)) done).run rest := by
  by_cases short : c ∈ ['"', '\\', '\n', '\t', '\r', '\x08', '\x0c']
  · simp only [List.mem_cons, List.not_mem_nil, or_false] at short
    rcases short with rfl | rfl | rfl | rfl | rfl | rfl | rfl <;> rfl
  · simp only [List.mem_cons, List.not_mem_nil, or_false, not_or] at short
    obtain ⟨quote, backslash, newline, tab, feed, back, form⟩ := short
    by_cases control : c.toNat < 0x20
    · have coded : isCoded c = true := by simp [isCoded, control, newline, tab, feed, back, form]
      have zero : Text.hexValue? '0' = some 0 := by decide
      have value : 16 * (c.toNat / 16 % 16) + c.toNat % 16 = c.toNat := by omega
      simp [escapeChar, run, step, enter, pieceOf, quote, backslash, newline, tab, feed, back, form,
        control, coded, zero, hexValue?_hexDigit, value]
    · have plain : isCoded c = false := by simp [isCoded, control]
      simp [escapeChar, run, step, enter, pieceOf, quote, backslash, newline, tab, feed, back, form,
        control, plain]

theorem run_quote (s : String) :
    (Scan.mk .between done).run (quote s ++ rest) =
      (Scan.mk .between (.string (pieces s) :: done)).run rest := by
  have body (cs : List Char) (acc : List Piece) :
      (Scan.mk (.quoted acc) done).run (cs.flatMap escapeChar ++ '"' :: rest) =
        (Scan.mk .between (.string (acc.reverse ++ cs.map pieceOf) :: done)).run rest := by
    induction cs generalizing acc with
    | nil => simp [run, step, emit]
    | cons c cs ih => simp [run_escapeChar, ih]
  have opens : quote s ++ rest = '"' :: (s.toList.flatMap escapeChar ++ '"' :: rest) := by
    simp [quote]
  rw [opens]
  exact body s.toList []

end Scan

theorem Piece.join_pieces (cs : List Char) : Piece.join (cs.map pieceOf) = some cs := by
  induction cs with
  | nil => rfl
  | cons c cs ih =>
    rw [List.map_cons, pieceOf]
    split
    next coded =>
      have control : c.toNat < 0x20 := by
        simp only [isCoded, Bool.and_eq_true, decide_eq_true_eq] at coded
        exact coded.1
      rw [Piece.join.eq_def]
      simp only
      rw [if_neg (by omega), if_neg (by omega), ih, Option.map_some, Char.ofNat_toNat]
    next => rw [Piece.join, ih, Option.map_some]

/-- A string comes back as it was. -/
@[simp] theorem Piece.text?_pieces (s : String) : Piece.text? (pieces s) = some s := by
  rw [Piece.text?, pieces, join_pieces, Option.map_some, String.ofList_toList]

end WalletSession.Json
