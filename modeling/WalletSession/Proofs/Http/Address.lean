import Mathlib.Data.List.TakeWhile
import WalletSession.Http.Url

/-! Addresses that are put together from a base and a path. The base says which host is meant and what
stands before the path; the path stays as it is, whatever the base does with its dots and signs. -/
namespace WalletSession

namespace Http.Url

section Resolve

/-- What a segment makes of those before it, the last one first. -/
def climb (kept : List (List Char)) (s : List Char) : List (List Char) :=
  if plainDots s = ['.'] then kept
  else if plainDots s = ['.', '.'] then kept.tail
  else s :: kept

/-- The segment stands for itself. -/
def IsName (s : List Char) : Prop := plainDots s ≠ ['.'] ∧ plainDots s ≠ ['.', '.']

instance (s : List Char) : Decidable (IsName s) := inferInstanceAs (Decidable (_ ∧ _))

theorem go_cons (kept : List (List Char)) (s : List Char) {rest : List (List Char)}
    (more : rest ≠ []) : resolve.go kept (s :: rest) = resolve.go (climb kept s) rest := by
  rw [resolve.go, climb]
  · split
    · rfl
    · split <;> rfl
  · exact more

theorem go_append (kept segments : List (List Char)) {rest : List (List Char)} (more : rest ≠ []) :
    resolve.go kept (segments ++ rest) = resolve.go (segments.foldl climb kept) rest := by
  induction segments generalizing kept with
  | nil => rfl
  | cons s segments ih =>
    rw [List.cons_append, go_cons _ _ (by simp [more]), ih, List.foldl_cons]

theorem go_names (kept names : List (List Char)) (plain : ∀ s ∈ names, IsName s) :
    resolve.go kept names = kept.reverse ++ names := by
  induction names generalizing kept with
  | nil => simp [resolve.go]
  | cons s names ih =>
    obtain ⟨single, double⟩ := plain s List.mem_cons_self
    by_cases last : names = []
    · subst last
      simp [resolve.go, single, double]
    · rw [go_cons _ _ last, climb, if_neg single, if_neg double,
        ih _ fun s member => plain s (List.mem_cons_of_mem _ member)]
      simp

end Resolve

def rendered (segments : List (List Char)) : List Char :=
  segments.flatMap fun s => '/' :: s.flatMap (encodeChar escapedInPath)

/-- A path that an address takes over as it is. -/
structure IsPlain (path : List Char) : Prop where
  rooted : path.head? = some '/'
  clear : ∀ c ∈ path, isGap c = false ∧ c ≠ '?' ∧ c ≠ '#'
  names : ∀ s ∈ Text.splitAt isSlash path.tail, IsName s
  same : rendered (Text.splitAt isSlash path.tail) = path

-- A search through all characters there are would be an instance as well.
instance (path : List Char) : Decidable (IsPlain path) :=
  haveI : Decidable (∀ c ∈ path, isGap c = false ∧ c ≠ '?' ∧ c ≠ '#') := List.decidableBAll _ path
  decidable_of_iff
    (path.head? = some '/' ∧ (∀ c ∈ path, isGap c = false ∧ c ≠ '?' ∧ c ≠ '#') ∧
      (∀ s ∈ Text.splitAt isSlash path.tail, IsName s) ∧
      rendered (Text.splitAt isSlash path.tail) = path)
    ⟨fun ⟨rooted, clear, names, same⟩ => ⟨rooted, clear, names, same⟩,
      fun plain => ⟨plain.rooted, plain.clear, plain.names, plain.same⟩⟩

theorem IsPlain.cons {path : List Char} (plain : IsPlain path) :
    path = '/' :: path.tail := by
  have rooted := plain.rooted
  cases path <;> simp_all

theorem pathOf_eq (cs : List Char) :
    pathOf cs = .ofList (rendered (resolve.go [] (Text.splitAt isSlash
      (if isSlash (cs.headD '.') then cs.drop 1 else cs)))) := rfl

/-- What stands before the path depends on the base alone. -/
theorem pathOf_append {base : List Char} (rooted : ∀ c ∈ base.head?, isSlash c = true) :
    ∃ front, ∀ path, IsPlain path → pathOf (base ++ path) = .ofList (front ++ path) := by
  have slash : isSlash '/' = true := by decide
  cases base with
  | nil =>
    refine ⟨[], fun path plain => ?_⟩
    have segments : Text.splitAt isSlash
        (if isSlash (path.headD '.') then path.drop 1 else path) =
          Text.splitAt isSlash path.tail := by
      rw [plain.cons]
      simp [slash]
    rw [List.nil_append, pathOf_eq, segments, go_names _ _ plain.names]
    exact congrArg _ plain.same
  | cons c base =>
    have first : isSlash c = true := rooted c rfl
    refine ⟨rendered ((Text.splitAt isSlash base).foldl climb []).reverse, fun path plain => ?_⟩
    have segments : Text.splitAt isSlash
        (if isSlash ((c :: base ++ path).headD '.') then (c :: base ++ path).drop 1
          else c :: base ++ path) =
          Text.splitAt isSlash base ++ Text.splitAt isSlash path.tail := by
      rw [plain.cons]
      simp [first, Text.splitAt_append slash]
    rw [pathOf_eq, segments, go_append _ _ (Text.splitAt_ne_nil _), go_names _ _ plain.names,
      rendered, List.flatMap_append, ← rendered, ← rendered, plain.same]

section Clean

/-- What counts in an address. -/
def counts (c : Char) : Bool := !(c == '\t' || c == '\n' || c == '\r')

theorem filter_counts {path : List Char} (plain : IsPlain path) : path.filter counts = path := by
  refine List.filter_eq_self.mpr fun c member => ?_
  have clear := (plain.clear c member).1
  by_contra drops
  have gap : (c = '\t' ∨ c = '\n') ∨ c = '\r' := by
    simpa only [counts, Bool.not_eq_true', Bool.not_eq_false, Bool.or_eq_true, beq_iff_eq] using drops
  rcases gap with (rfl | rfl) | rfl <;> exact absurd clear (by decide)

theorem dropWhile_append_clear (base : List Char) {path : List Char} (plain : IsPlain path) :
    (base ++ path).dropWhile isGap = base.dropWhile isGap ++ path := by
  rw [List.dropWhile_append]
  split
  · next none =>
    rw [List.isEmpty_iff.mp none, List.nil_append, plain.cons,
      List.dropWhile_cons_of_neg (by decide)]
  · rfl

theorem dropWhile_reverse_clear (base : List Char) {path : List Char} (plain : IsPlain path) :
    (base ++ path).reverse.dropWhile isGap = (base ++ path).reverse := by
  obtain ⟨last, rest, split⟩ : ∃ last rest, path.reverse = last :: rest := by
    refine List.exists_cons_of_ne_nil fun none => ?_
    rw [List.reverse_eq_nil_iff.mp none] at plain
    cases plain.rooted
  have clear := (plain.clear last (List.mem_reverse.mp (split ▸ List.mem_cons_self))).1
  rw [List.reverse_append, split, List.cons_append, List.dropWhile_cons_of_neg (by simp [clear])]

/-- The base loses white space at its start only, and everywhere what does not count; at its end white
space counts, since the path follows. -/
theorem clean_append (base : List Char) : ∃ gaps, (∀ c ∈ gaps, c ∈ base) ∧ ∀ path, IsPlain path →
    clean (base ++ path) = clean base ++ gaps ++ path := by
  let body := base.dropWhile isGap
  let ends := (body.reverse.takeWhile isGap).reverse
  have halves : body = (body.reverse.dropWhile isGap).reverse ++ ends := by
    rw [← List.reverse_append, List.takeWhile_append_dropWhile, List.reverse_reverse]
  refine ⟨ends.filter counts, fun c member => ?_, fun path plain => ?_⟩
  · have inBody : c ∈ body := by
      rw [halves]
      exact List.mem_append_right _ (List.mem_filter.mp member).1
    exact (List.dropWhile_suffix isGap).subset inBody
  · calc clean (base ++ path)
        = (body ++ path).filter counts := by
          rw [clean, dropWhile_append_clear base plain, dropWhile_reverse_clear _ plain,
            List.reverse_reverse]
          rfl
      _ = body.filter counts ++ path := by rw [List.filter_append, filter_counts plain]
      _ = clean base ++ ends.filter counts ++ path := by
        rw [halves, List.filter_append]
        rfl

theorem clean_subset {cs : List Char} : clean cs ⊆ cs := by
  intro c member
  have inner := List.mem_reverse.mp (List.mem_filter.mp member).1
  have trimmed := List.mem_reverse.mp ((List.dropWhile_suffix isGap).subset inner)
  exact (List.dropWhile_suffix isGap).subset trimmed

end Clean

theorem scheme?_append {cs rest : List Char} {scheme : String}
    (read : scheme? cs = some (scheme, rest)) (more : List Char) :
    scheme? (cs ++ more) = some (scheme, rest ++ more) := by
  unfold scheme? at read ⊢
  dsimp only at read ⊢
  split at read
  · next first name rest' found after =>
    have colon : isSchemeChar ':' = false := by decide
    have inName (c : Char) (member : c ∈ first :: name) : isSchemeChar c = true :=
      List.all_eq_true.mp List.all_takeWhile c (found ▸ member)
    have split : cs ++ more = (first :: name) ++ ':' :: (rest' ++ more) := by
      rw [← List.cons_append, ← List.append_assoc, ← found, ← after,
        List.takeWhile_append_dropWhile]
    have taken : (cs ++ more).takeWhile isSchemeChar = first :: name := by
      rw [split, List.takeWhile_append_of_pos inName, List.takeWhile_cons_of_neg (by simp [colon]),
        List.append_nil]
    have left : (cs ++ more).dropWhile isSchemeChar = ':' :: (rest' ++ more) := by
      rw [split, List.dropWhile_append_of_pos inName, List.dropWhile_cons_of_neg (by simp [colon])]
    rw [taken, left]
    split at read
    · next isLetter =>
      obtain ⟨rfl, rfl⟩ := Prod.mk.inj (Option.some.inj read)
      rw [found]
      exact if_pos isLetter
    · cases read
  · cases read

theorem scheme?_suffix {cs rest : List Char} {scheme : String}
    (read : scheme? cs = some (scheme, rest)) : rest <:+ cs := by
  unfold scheme? at read
  dsimp only at read
  split at read
  · next first name rest' found after =>
    split at read
    · obtain ⟨rfl, rfl⟩ := Prod.mk.inj (Option.some.inj read)
      exact (List.suffix_cons _ _).trans (after ▸ List.dropWhile_suffix isSchemeChar)
    · cases read
  · cases read

section Resource

/-- The text up to the path or the query. -/
def authorityOf (rest : List Char) : List Char := rest.takeWhile fun c => !isSlash c && c != '?'

/-- An address from its authority on. -/
def resource? (scheme : String) (isSecure : Bool) (rest : List Char) : Option Url :=
  let tail := rest.drop (authorityOf rest).length
  let query :=
    match tail.dropWhile (· != '?') with
    | '?' :: q => some (String.ofList (q.flatMap (encodeChar escapedInQuery)))
    | _ => none
  (origin? isSecure (authorityOf rest)).bind fun origin =>
    let u : Url := { origin, path := pathOf (tail.takeWhile (· != '?')), query }
    if (scheme ++ "://").length + (authorityOf rest).length + u.target.length ≤ longest then some u
    else none

theorem parse?_eq (s : String) :
    parse? s = (scheme? (clean s.toList)).bind fun (scheme, rest) =>
      (isSecure? scheme).bind fun isSecure =>
        resource? scheme isSecure ((rest.dropWhile isSlash).takeWhile (· != '#')) := rfl

theorem authorityOf_append (rest : List Char) {path : List Char} (plain : IsPlain path) :
    authorityOf (rest ++ path) = authorityOf rest := by
  have stops : path.takeWhile (fun c => !isSlash c && c != '?') = [] := by
    rw [plain.cons, List.takeWhile_cons_of_neg (by decide)]
  unfold authorityOf
  rw [List.takeWhile_append, stops, List.append_nil]
  split
  · next whole => exact ((List.takeWhile_prefix _).eq_of_length whole).symm
  · rfl

/-- A path, if anything, follows the authority. -/
theorem rooted_of_authority {rest : List Char} (closed : ∀ c ∈ rest, c ≠ '?') :
    ∀ c ∈ (rest.drop (authorityOf rest).length).head?, isSlash c = true := by
  intro c first
  let within (c : Char) : Bool := !isSlash c && c != '?'
  have halves : rest.takeWhile within ++ rest.dropWhile within = rest :=
    List.takeWhile_append_dropWhile
  have behind : rest.drop (rest.takeWhile within).length = rest.dropWhile within :=
    calc rest.drop (rest.takeWhile within).length
        = (rest.takeWhile within ++ rest.dropWhile within).drop (rest.takeWhile within).length := by
          rw [halves]
      _ = rest.dropWhile within := List.drop_left
  rw [authorityOf, behind] at first
  have stops := List.head?_dropWhile_not within rest
  rw [first] at stops
  have member := List.dropWhile_suffix within |>.subset (List.mem_of_mem_head? first)
  simpa [within, closed c member] using stops

theorem target_of_plain (origin : Origin) (path : String) : target ⟨origin, path, none⟩ = path := rfl

/-- What stands before the path, and the origin, depend on the base alone. -/
theorem resource?_append (scheme : String) (isSecure : Bool) {rest : List Char}
    (closed : ∀ c ∈ rest, c ≠ '?') :
    ∃ front, ∀ path, IsPlain path → resource? scheme isSecure (rest ++ path) =
      (origin? isSecure (authorityOf rest)).bind fun origin =>
        if (scheme ++ "://").length + (authorityOf rest).length + (front ++ path).length ≤ longest then
          some ⟨origin, .ofList (front ++ path), none⟩
        else none := by
  obtain ⟨front, paths⟩ := pathOf_append (rooted_of_authority closed)
  refine ⟨front, fun path plain => ?_⟩
  have tail : (rest ++ path).drop (authorityOf rest).length =
      rest.drop (authorityOf rest).length ++ path :=
    List.drop_append_of_le_length (List.takeWhile_prefix _).length_le
  have closed' : ∀ c ∈ rest.drop (authorityOf rest).length ++ path, (c != '?') = true := by
    intro c member
    rcases List.mem_append.mp member with before | after
    · simpa using closed c (List.mem_of_mem_drop before)
    · simpa using (plain.clear c after).2.1
  unfold resource?
  rw [authorityOf_append rest plain, tail]
  simp only [List.takeWhile_eq_self_iff.mpr closed', List.dropWhile_eq_nil_iff.mpr closed',
    paths path plain, target_of_plain, String.length_ofList]

end Resource

/-- A base that a path may follow: it is an address itself, without a query and without a fragment. -/
structure IsBase (base : String) : Prop where
  address : (parse? base).isSome = true
  plain : ∀ c ∈ base.toList, c ≠ '?' ∧ c ≠ '#'

instance (base : String) : Decidable (IsBase base) :=
  haveI : Decidable (∀ c ∈ base.toList, c ≠ '?' ∧ c ≠ '#') := List.decidableBAll _ base.toList
  decidable_of_iff ((parse? base).isSome = true ∧ ∀ c ∈ base.toList, c ≠ '?' ∧ c ≠ '#')
    ⟨fun ⟨address, plain⟩ => ⟨address, plain⟩, fun isBase => ⟨isBase.address, isBase.plain⟩⟩

theorem IsBase.scheme? {base : String} (isBase : IsBase base) :
    ∃ scheme isSecure rest, scheme? (clean base.toList) = some (scheme, rest) ∧
      isSecure? scheme = some isSecure ∧ rest.dropWhile isSlash ≠ [] := by
  obtain ⟨u, address⟩ := Option.isSome_iff_exists.mp isBase.address
  rw [parse?_eq] at address
  obtain ⟨⟨scheme, rest⟩, read, address⟩ := Option.bind_eq_some_iff.mp address
  obtain ⟨isSecure, known, address⟩ := Option.bind_eq_some_iff.mp address
  refine ⟨scheme, isSecure, rest, read, known, fun bare => ?_⟩
  have nobody : origin? isSecure (authorityOf []) = none := rfl
  simp [bare, resource?, nobody] at address

/-- The requests to a base go to one origin, and each path stands behind the same front, as a single
slash would. -/
theorem IsBase.place {base : String} (isBase : IsBase base) :
    ∃ origin front, ∀ path : String, IsPlain path.toList → ∀ u, parse? (base ++ path) = some u →
      u = ⟨origin, front ++ path, none⟩ ∧ parse? (base ++ "/") = some ⟨origin, front ++ "/", none⟩ := by
  obtain ⟨gaps, inBase, cleaned⟩ := clean_append base.toList
  obtain ⟨scheme, isSecure, rest, read, known, named⟩ := isBase.scheme?
  let front := rest.dropWhile isSlash ++ gaps
  have closed : ∀ c ∈ front, c ≠ '?' ∧ c ≠ '#' := by
    intro c member
    rcases List.mem_append.mp member with before | gap
    · have inRest := (List.dropWhile_suffix isSlash).subset before
      exact isBase.plain c (clean_subset ((scheme?_suffix read).subset inRest))
    · exact isBase.plain c (inBase c gap)
  obtain ⟨before, found⟩ := resource?_append scheme isSecure fun c member => (closed c member).1
  have address (path : String) (plain : IsPlain path.toList) :
      parse? (base ++ path) = resource? scheme isSecure (front ++ path.toList) := by
    have whole : ((rest ++ (gaps ++ path.toList)).dropWhile isSlash).takeWhile (· != '#') =
        front ++ path.toList := by
      rw [List.dropWhile_append, if_neg (by simpa using named), ← List.append_assoc]
      refine List.takeWhile_eq_self_iff.mpr fun c member => ?_
      rcases List.mem_append.mp member with before | after
      · simpa using (closed c before).2
      · simpa using (plain.clear c after).2.2
    rw [parse?_eq, String.toList_append, cleaned _ plain, List.append_assoc,
      scheme?_append read, Option.bind_some]
    dsimp only
    rw [known, Option.bind_some, whole]
  have slash : IsPlain "/".toList := by decide
  cases named : origin? isSecure (authorityOf front) with
  | none =>
    refine ⟨⟨false, .name "", 0⟩, "", fun path plain u found' => ?_⟩
    simp [address path plain, found _ plain, named] at found'
  | some origin =>
    have written (path : String) : String.ofList (before ++ path.toList) = .ofList before ++ path :=
      String.toList_injective (by simp)
    refine ⟨origin, .ofList before, fun path plain u found' => ?_⟩
    rw [address path plain, found _ plain, named, Option.bind_some] at found'
    obtain ⟨fits, eq⟩ := Option.ite_none_right_eq_some.mp found'
    refine ⟨by rw [← Option.some.inj eq, written], ?_⟩
    -- a path is no shorter than a slash
    have longer := congrArg List.length plain.cons
    rw [List.length_append] at fits
    rw [List.length_cons] at longer
    rw [address "/" slash, found _ slash, named, Option.bind_some, if_pos, written]
    rw [List.length_append]
    change _ + (_ + 1) ≤ _
    omega

end Http.Url

end WalletSession
