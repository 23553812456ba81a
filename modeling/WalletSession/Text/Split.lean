/-! Cutting a text into pieces. -/
namespace WalletSession.Text

/-- Cuts a list at every character of a class. -/
def splitAt (p : Char → Bool) : List Char → List (List Char)
  | [] => [[]]
  | c :: rest =>
    match splitAt p rest with
    | first :: more => if p c then [] :: first :: more else (c :: first) :: more
    | [] => [[]]

variable {p : Char → Bool}

theorem splitAt_ne_nil (cs : List Char) : splitAt p cs ≠ [] := by
  cases cs with
  | nil => simp [splitAt]
  | cons c rest =>
    unfold splitAt
    split
    · split <;> simp
    · simp

theorem splitAt_append {c : Char} (cuts : p c = true) (front back : List Char) :
    splitAt p (front ++ c :: back) = splitAt p front ++ splitAt p back := by
  induction front with
  | nil =>
    cases pieces : splitAt p back with
    | nil => exact absurd pieces (splitAt_ne_nil back)
    | cons first more => simp [splitAt, pieces, cuts]
  | cons d front ih =>
    rw [List.cons_append, splitAt, splitAt, ih]
    cases pieces : splitAt p front with
    | nil => exact absurd pieces (splitAt_ne_nil front)
    | cons first more =>
      simp only [List.cons_append]
      split <;> rfl

end WalletSession.Text
