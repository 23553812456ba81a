import WalletSession.Store.FilePath

/-! The directory above a path: it is reached by the steps of the path without the last one. -/
namespace WalletSession

namespace Text

variable {p : Char → Bool}

theorem splitAt_self (piece : List Char) (inside : ∀ c ∈ piece, p c = false) :
    splitAt p piece = [piece] := by
  induction piece with
  | nil => rfl
  | cons c piece ih =>
    rw [splitAt, ih fun c' mem => inside c' (List.mem_cons_of_mem c mem)]
    simp [inside c List.mem_cons_self]

theorem splitAt_inside (cs : List Char) : ∀ piece ∈ splitAt p cs, ∀ c ∈ piece, p c = false := by
  induction cs with
  | nil => simp [splitAt]
  | cons c cs ih =>
    rw [splitAt]
    split
    next first more pieces =>
      rw [pieces] at ih
      cases cut : p c with
      | true => simpa using ih
      | false =>
        intro piece mem
        rw [if_neg (by simp)] at mem
        rcases List.mem_cons.mp mem with rfl | mem
        · intro c' within
          rcases List.mem_cons.mp within with rfl | within
          · exact cut
          · exact ih first List.mem_cons_self c' within
        · exact ih piece (List.mem_cons_of_mem first mem)
    next => simp

/-- Pieces that were put together with slashes are the pieces of the whole. -/
theorem splitAt_intercalate {pieces : List (List Char)} (some : pieces ≠ [])
    (inside : ∀ piece ∈ pieces, ∀ c ∈ piece, (c == '/') = false) :
    splitAt (· == '/') (['/'].intercalate pieces) = pieces := by
  induction pieces with
  | nil => exact absurd rfl some
  | cons piece pieces ih =>
    have own := inside piece List.mem_cons_self
    rcases pieces with _ | ⟨next, pieces⟩
    · rw [List.intercalate_singleton, splitAt_self piece own]
    · rw [List.intercalate_cons_cons, List.append_assoc, List.singleton_append,
        splitAt_append (p := (· == '/')) rfl piece, splitAt_self piece own,
        ih (List.cons_ne_nil next pieces) fun p mem => inside p (List.mem_cons_of_mem piece mem),
        List.singleton_append]

end Text

namespace FilePath

/-- Without a dot at its end a path has a name for each step. -/
theorem reverse_steps {p : FilePath} (ending : p.pieces.reverse.find? (· != []) ≠ some ['.']) :
    p.steps.reverse = (p.pieces.reverse.filter (!isNoStep ·)).map String.ofList := by
  rw [steps, if_neg ending, ← List.map_reverse, List.filter_reverse]

theorem filter_dropWhile (pieces : List (List Char)) :
    (pieces.dropWhile isNoStep).filter (!isNoStep ·) = pieces.filter (!isNoStep ·) := by
  induction pieces with
  | nil => rfl
  | cons piece pieces ih =>
    cases none : isNoStep piece <;> simp [none, ih]

/-- Without a dot at its end a path has the steps of the directory above it, and one more. -/
theorem parent_steps {p : FilePath} {name : String} {before : List String}
    (split : p.steps.reverse = name :: before) (dot : name ≠ ".") :
    p.parent.steps = before.reverse := by
  have ending : p.pieces.reverse.find? (· != []) ≠ some ['.'] := by
    intro ends
    rw [steps, if_pos ends] at split
    rw [List.map_append, List.reverse_append] at split
    exact dot (List.cons.inj split).1.symm
  rw [reverse_steps ending, List.map_eq_cons_iff] at split
  obtain ⟨last, names, split, -, rfl⟩ := split
  obtain ⟨after, above, backwards, nothing, named, rfl⟩ := List.filter_eq_cons_iff.mp split
  have inside : ∀ piece ∈ above.dropWhile isNoStep, ∀ c ∈ piece, (c == '/') = false := by
    intro piece mem
    have mem : piece ∈ p.pieces.reverse := by
      rw [backwards]
      exact List.mem_append_right _ (List.mem_cons_of_mem _ (List.dropWhile_subset _ mem))
    exact Text.splitAt_inside _ piece (List.mem_reverse.mp mem)
  have text : p.parent.text.toList = ['/'].intercalate (above.dropWhile isNoStep).reverse := by
    have drops : p.pieces.reverse.dropWhile isNoStep = last :: above := by
      rw [backwards, List.dropWhile_append_of_pos (by simpa using nothing),
        List.dropWhile_cons_of_neg (by simpa using named)]
    simp [parent, drops, String.toList_intercalate, Function.comp_def]
  rw [← List.reverse_inj, List.reverse_reverse, ← filter_dropWhile above]
  cases highest : above.dropWhile isNoStep with
  | nil =>
    have empty : p.parent.pieces = [[]] := by rw [pieces, text, highest]; rfl
    simp [steps, empty, isNoStep]
  | cons piece rest =>
    have step : isNoStep piece = false := by
      have first := List.head?_dropWhile_not isNoStep above
      simpa [highest] using first
    have pieces : p.parent.pieces = (piece :: rest).reverse := by
      rw [highest] at inside
      rw [FilePath.pieces, text, highest, Text.splitAt_intercalate (by simp)]
      exact fun piece mem => inside piece (List.mem_reverse.mp mem)
    simp only [isNoStep, Bool.or_eq_false_iff, beq_eq_false_iff_ne] at step
    rw [reverse_steps, pieces, List.reverse_reverse]
    rw [pieces, List.reverse_reverse, List.find?_cons_of_pos (by simpa using step.1)]
    simpa using step.2

end FilePath

end WalletSession
