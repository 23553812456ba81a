import WalletSession.Backend.Answer
import WalletSession.Proofs.Json.Sorted
import WalletSession.Proofs.Json.Trimming

/-! The detail of a rejection. A body that is an object without a detail is not passed on as it came: it
is read and written anew, with its members sorted by name and each name once, so that it comes out as it
came only if it was written that way. -/
namespace WalletSession

namespace Json

variable {body : String} {members : List (String × Json)}

/-- The members of an object text, in the order in which they are written. -/
def members? (body : String) : Option (List (String × Json)) :=
  match Tree.parse? body.toList with
  | some (.object trees) => Reader.jsonMembers (nestingLimit - 1) trees
  | _ => none

theorem exists_of_members? (found : members? body = some members) :
    ∃ trees, Tree.parse? body.toList = some (.object trees) ∧
      Reader.jsonMembers (nestingLimit - 1) trees = some members := by
  unfold members? at found
  split at found
  · next trees parsed => exact ⟨trees, parsed, found⟩
  · cases found

theorem parse?_of_members? (found : members? body = some members) :
    parse? body = some (.object (sortMembers members)) := by
  obtain ⟨trees, parsed, read⟩ := exists_of_members? found
  rw [parse?, Reader.decode?, parsed, Option.bind_some]
  exact congrArg (Option.map _) read

theorem members?_trim (found : members? body = some members) :
    members? (Text.trim body) = some members := by
  obtain ⟨trees, parsed, read⟩ := exists_of_members? found
  obtain ⟨ts, tokens, value⟩ := Option.bind_eq_some_iff.mp parsed
  have trimmed : Tree.parse? (Text.trim body).toList = some (.object trees) := by
    rw [Text.trim, String.toList_ofList, Tree.parse?, tokens?_trimChars tokens]
    exact value
  rw [members?, trimmed]
  exact read

/-- Members are written in the order in which they stand. -/
theorem tree_render (values : ∀ m ∈ members, Readable (nestingLimit - 1) m.2) :
    Tree.parse? (Json.object members).render.toList = some (.object (members.map memberTree)) := by
  obtain ⟨ts, written⟩ := written_object fun m member => (values m member).written
  rw [render, String.toList_ofList]
  exact written.parse?

theorem members?_render (values : ∀ m ∈ members, Legible (nestingLimit - 1) m.2) :
    members? (Json.object members).render = some members := by
  rw [members?, tree_render fun m member => (values m member).readable]
  exact jsonMembers_map_memberTree fun m member => (values m member).json_tree

/-- Members are read with the names that are written. -/
theorem names_of_jsonMembers {depth : ℕ} {trees : List (List Piece × Tree)}
    (read : Reader.jsonMembers depth trees = some members) :
    trees.map (fun m => Piece.text? m.1) = members.map fun m => some m.1 := by
  induction trees generalizing members with
  | nil =>
    cases read
    rfl
  | cons m rest ih =>
    rw [Reader.jsonMembers] at read
    split at read
    · next name v others named value more =>
      cases read
      rw [List.map_cons, List.map_cons, named, ih more]
    · cases read

/-- Only an object whose members are sorted by name, each name once, comes out with the members that it
came with. -/
theorem sortMembers_of_render (found : members? body = some members)
    (same : (Json.object (sortMembers members)).render = Text.trim body) :
    sortMembers members = members := by
  obtain ⟨trees, _, read⟩ := exists_of_members? found
  have back : Reader.json nestingLimit (.object trees) = some (.object (sortMembers members)) :=
    congrArg (Option.map _) read
  obtain ⟨trees', parsed', read'⟩ := exists_of_members? (members?_trim found)
  obtain rfl : trees' = (sortMembers members).map memberTree := by
    have parsed := tree_render (readable_of_json back).values
    rw [same, parsed'] at parsed
    injections
  have names : (sortMembers members).map (·.1) = members.map (·.1) := by
    have names := names_of_jsonMembers read'
    simp only [List.map_map, Function.comp_def, memberTree, Piece.text?_pieces] at names
    refine List.map_injective_iff.mpr (Option.some_injective _) ?_
    rw [List.map_map, List.map_map]
    exact names
  have sorted := List.pairwise_map.mpr (sorted_sortMembers members)
  rw [names] at sorted
  exact sortMembers_of_sorted (List.pairwise_map.mp sorted)

end Json

namespace Backend

open Json

variable {body : String} {members : List (String × Json)}

theorem errorDetail_of_members? (found : members? body = some members) :
    errorDetail body =
      match members.reverse.lookup "detail" with
      | some (.string s) => s
      | some other => other.render
      | none => (Json.object (sortMembers members)).render := by
  cases last : members.reverse.lookup "detail" with
  | none => simp only [errorDetail, parse?_of_members? found, lookup_sortMembers, last]
  | some v =>
    cases v <;> simp only [errorDetail, parse?_of_members? found, lookup_sortMembers, last]

/-- What is told of a rejection, for every body: one that is not JSON without the white space around it;
the detail of an object, if its last one is a string; and an object without one sorted by name, which is
the body itself exactly if it was written so. -/
theorem detail_of_every_body (body : String) :
    (Json.parse? body = none → errorDetail body = Text.trim body) ∧
    ∀ members, members? body = some members →
      (∀ s, members.reverse.lookup "detail" = some (.string s) → errorDetail body = s) ∧
      (members.reverse.lookup "detail" = none →
        errorDetail body = (Json.object (sortMembers members)).render ∧
        (errorDetail body = Text.trim body ↔
          members.Pairwise (fun m m' => m.1 < m'.1) ∧
            Text.trim body = (Json.object members).render)) := by
  refine ⟨fun other => by rw [errorDetail, other], fun members found => ⟨?_, fun bare => ?_⟩⟩
  · intro s given
    rw [errorDetail_of_members? found, given]
  · have told : errorDetail body = (Json.object (sortMembers members)).render := by
      rw [errorDetail_of_members? found, bare]
    refine ⟨told, ?_, ?_⟩
    · intro raw
      have kept := sortMembers_of_render found (told.symm.trans raw)
      refine ⟨kept ▸ sorted_sortMembers members, ?_⟩
      rw [← raw, told, kept]
    · rintro ⟨sorted, raw⟩
      rw [told, sortMembers_of_sorted sorted, raw]

def unsorted : String := "\x7b\"b\":1,\"a\":2\x7d"

def unsortedMembers : List (String × Json) :=
  [("b", .number (.integer 1)), ("a", .number (.integer 2))]

theorem unsorted_eq : (Json.object unsortedMembers).render = unsorted := by decide +kernel

theorem members?_unsorted : members? unsorted = some unsortedMembers := by
  rw [← unsorted_eq]
  refine members?_render ?_
  simp only [unsortedMembers, List.forall_mem_cons]
  exact ⟨.number (by decide), .number (by decide), nofun⟩

/-- The members change their places. -/
theorem unsorted_is_sorted :
    unsorted = "\x7b\"b\":1,\"a\":2\x7d" ∧
      errorDetail unsorted = "\x7b\"a\":2,\"b\":1\x7d" ∧ errorDetail unsorted ≠ Text.trim unsorted := by
  obtain ⟨told, raw⟩ := ((detail_of_every_body unsorted).2 _ members?_unsorted).2 rfl
  refine ⟨rfl, ?_, fun same => ?_⟩
  · rw [told]
    decide +kernel
  · exact absurd (raw.mp same).1 (by decide +kernel)

/-- So an object without a detail is not always passed on as it came. -/
theorem not_every_object_raw :
    ¬∀ body members, members? body = some members → (∀ m ∈ members, m.1 ≠ "detail") →
      errorDetail body = Text.trim body := by
  intro always
  have raw := always unsorted _ members?_unsorted (by decide)
  have told : errorDetail unsorted = (Json.object (sortMembers unsortedMembers)).render :=
    errorDetail_of_members? members?_unsorted
  exact absurd (told.symm.trans raw) (by decide +kernel)

end Backend

end WalletSession
