import Mathlib.Data.String.Basic
import WalletSession.Proofs.Json.Values

/-! What is left of an object that is read as a value: its members in the order of their names, and of
several of one name the last. Whatever is read can be written and read again. -/
namespace WalletSession.Json

section Members

variable {members : List (String × Json)} {m : String × Json} {name : String} {v : Json}

theorem lookup_cons (name : String) (m : String × Json) (members : List (String × Json)) :
    (m :: members).lookup name = if name = m.1 then some m.2 else members.lookup name := by
  rw [List.lookup_cons]
  by_cases same : name = m.1
  · rw [if_pos same, beq_iff_eq.mpr same]
  · rw [if_neg same, beq_false_of_ne same]

theorem lookup_insertMember (name other : String) (v : Json) (members : List (String × Json)) :
    (insertMember name v members).lookup other =
      if other = name then some v else members.lookup other := by
  induction members with
  | nil => exact lookup_cons other (name, v) []
  | cons m rest ih =>
    rw [insertMember]
    split
    · exact lookup_cons other (name, v) (m :: rest)
    · split
      · next before same =>
        rw [lookup_cons, lookup_cons, same]
        split <;> rfl
      · next before apart =>
        rw [lookup_cons, lookup_cons, ih]
        by_cases first : other = m.1
        · have apart' : other ≠ name := fun same => apart (same.symm.trans first)
          rw [if_pos first, if_neg apart', if_pos first]
        · rw [if_neg first, if_neg first]

theorem sortMembers_concat (members : List (String × Json)) (m : String × Json) :
    sortMembers (members ++ [m]) = insertMember m.1 m.2 (sortMembers members) := List.foldl_concat ..

/-- Of several members of one name the last counts. -/
theorem lookup_sortMembers (members : List (String × Json)) (name : String) :
    (sortMembers members).lookup name = members.reverse.lookup name := by
  induction members using List.reverseRecOn with
  | nil => rfl
  | append_singleton members m ih =>
    rw [sortMembers_concat, lookup_insertMember, ih, List.reverse_append, List.reverse_singleton,
      List.singleton_append, lookup_cons]

theorem mem_insertMember (member : m ∈ insertMember name v members) :
    m = (name, v) ∨ m ∈ members := by
  induction members with
  | nil => simpa [insertMember] using member
  | cons first rest ih =>
    rw [insertMember] at member
    split at member
    · simpa using member
    · split at member
      · rcases List.mem_cons.mp member with new | old
        · exact .inl new
        · exact .inr (List.mem_cons_of_mem _ old)
      · rcases List.mem_cons.mp member with same | later
        · exact .inr (same ▸ List.mem_cons_self)
        · exact (ih later).imp_right (List.mem_cons_of_mem _)

theorem sorted_insertMember (sorted : members.Pairwise fun m m' => m.1 < m'.1) :
    (insertMember name v members).Pairwise fun m m' => m.1 < m'.1 := by
  induction members with
  | nil => exact List.pairwise_singleton ..
  | cons first rest ih =>
    obtain ⟨least, others⟩ := List.pairwise_cons.mp sorted
    rw [insertMember]
    split
    · next before =>
      refine List.pairwise_cons.mpr ⟨fun m member => ?_, sorted⟩
      rcases List.mem_cons.mp member with rfl | later
      · exact before
      · exact String.lt_trans before (least m later)
    · next unbefore =>
      split
      · next same =>
        subst same
        exact List.pairwise_cons.mpr ⟨least, others⟩
      · next apart =>
        refine List.pairwise_cons.mpr ⟨fun m member => ?_, ih others⟩
        rcases mem_insertMember member with rfl | later
        · exact lt_of_le_of_ne (not_lt.mp unbefore) (Ne.symm apart)
        · exact least m later

theorem sorted_sortMembers (members : List (String × Json)) :
    (sortMembers members).Pairwise fun m m' => m.1 < m'.1 := by
  induction members using List.reverseRecOn with
  | nil => exact .nil
  | append_singleton members m ih =>
    rw [sortMembers_concat]
    exact sorted_insertMember ih

theorem mem_of_mem_sortMembers (member : m ∈ sortMembers members) : m ∈ members := by
  induction members using List.reverseRecOn with
  | nil => exact member
  | append_singleton members last ih =>
    rw [sortMembers_concat] at member
    rcases mem_insertMember member with rfl | earlier
    · simp
    · exact List.mem_append_left _ (ih earlier)

end Members

section Read

variable {depth : ℕ} {t : Tree} {v : Json}

theorem exists_of_jsonItems {items : List Tree} {values : List Json}
    (read : Reader.jsonItems depth items = some values) :
    ∀ v ∈ values, ∃ t, Reader.json depth t = some v := by
  induction items generalizing values with
  | nil =>
    cases read
    nofun
  | cons t rest ih =>
    rw [Reader.jsonItems] at read
    split at read
    · next v others value more =>
      cases read
      exact List.forall_mem_cons.mpr ⟨⟨t, value⟩, ih more⟩
    · cases read

theorem exists_of_jsonMembers {trees : List (List Piece × Tree)} {members : List (String × Json)}
    (read : Reader.jsonMembers depth trees = some members) :
    ∀ m ∈ members, ∃ t, Reader.json depth t = some m.2 := by
  induction trees generalizing members with
  | nil =>
    cases read
    nofun
  | cons m rest ih =>
    rw [Reader.jsonMembers] at read
    split at read
    · next name v others named value more =>
      cases read
      exact List.forall_mem_cons.mpr ⟨⟨m.2, value⟩, ih more⟩
    · cases read

/-- The syntax of a value without others in it. -/
def Tree.IsLeaf : Tree → Prop
  | .array _ | .object _ => False
  | _ => True

theorem readable_of_leaf (read : Reader.json depth t = some v) (leaf : t.IsLeaf) :
    Readable depth v := by
  cases t with
  | null =>
    rw [Reader.json] at read
    cases read
    exact .null
  | bool b =>
    rw [Reader.json] at read
    cases read
    exact .bool b
  | number n =>
    rw [Reader.json] at read
    obtain ⟨value, known, rfl⟩ := Option.map_eq_some_iff.mp read
    exact .number (Number.fits_of_value? known)
  | string pieces =>
    rw [Reader.json] at read
    obtain ⟨s, known, rfl⟩ := Option.map_eq_some_iff.mp read
    exact .string s
  | array | object => exact leaf.elim

/-- Whatever is read can be read from its own text. -/
theorem readable_of_json (read : Reader.json depth t = some v) : Readable depth v := by
  induction depth generalizing t v with
  | zero =>
    cases t with
    | null | bool | number | string => exact readable_of_leaf read (by trivial)
    | array | object => cases read
  | succ depth ih =>
    cases t with
    | null | bool | number | string => exact readable_of_leaf read (by trivial)
    | array items =>
      obtain ⟨values, known, rfl⟩ := Option.map_eq_some_iff.mp read
      refine .array fun v member => ?_
      obtain ⟨t, value⟩ := exists_of_jsonItems known v member
      exact ih value
    | object trees =>
      obtain ⟨members, known, rfl⟩ := Option.map_eq_some_iff.mp read
      refine .object (sorted_sortMembers members) fun m member => ?_
      obtain ⟨t, value⟩ := exists_of_jsonMembers known m (mem_of_mem_sortMembers member)
      exact ih value

theorem Readable.values {members : List (String × Json)} (readable : Readable depth (.object members)) :
    ∀ m ∈ members, Readable (depth - 1) m.2 := by
  cases readable with
  | object _ values => exact values

end Read

end WalletSession.Json
