import WalletSession.Proofs.Json.Numerals

/-! Values read back. The text of a value is JSON text if its numbers fit, and the value is read from it
if its numbers are read back, its members stand in their order and its containers are not nested too
deep. -/
namespace WalletSession.Json

/-- A value that can be read where so many containers may be opened: its numbers fit, and the members
of its objects stand in the order of their names, each name once. -/
inductive Readable : ℕ → Json → Prop
  | null {depth : ℕ} : Readable depth .null
  | bool {depth : ℕ} (b : Bool) : Readable depth (.bool b)
  | number {depth : ℕ} {n : Number} (fits : n.Fits) : Readable depth (.number n)
  | string {depth : ℕ} (s : String) : Readable depth (.string s)
  | array {depth : ℕ} {items : List Json} (values : ∀ v ∈ items, Readable depth v) :
      Readable (depth + 1) (.array items)
  | object {depth : ℕ} {members : List (String × Json)}
      (sorted : members.Pairwise fun m m' => m.1 < m'.1)
      (values : ∀ m ∈ members, Readable depth m.2) : Readable (depth + 1) (.object members)

/-- A number that stands somewhere in a value. -/
inductive HasNumber : Json → Number → Prop
  | number (n : Number) : HasNumber (.number n) n
  | item {items : List Json} {v : Json} {n : Number} (member : v ∈ items) (held : HasNumber v n) :
      HasNumber (.array items) n
  | member {members : List (String × Json)} {m : String × Json} {n : Number} (member : m ∈ members)
      (held : HasNumber m.2 n) : HasNumber (.object members) n

variable {ts : List Token} {t : Tree} {v : Json} {depth : ℕ}

namespace Awaited

/-- Only a closing bracket tells a fresh array from one that awaits another item. -/
theorem run_fresh {stack outer : List Frame} {before : List Tree} {value : Tree}
    (ran : (Awaited.value (.array before :: stack) false).run ts = some (.more outer value)) :
    (Awaited.value (.array before :: stack) true).run ts = some (.more outer value) := by
  cases ts with
  | nil => cases ran
  | cons token rest =>
    cases token
    case closeArray => cases ran
    all_goals exact ran

end Awaited

/-- The items of an array, their tokens and what is read of them. -/
inductive ItemsWritten : List Json → List Token → List Tree → Prop
  | one {v : Json} {ts : List Token} {t : Tree} (value : Written v.chars ts t) : ItemsWritten [v] ts [t]
  | more {v : Json} {ts tokens : List Token} {t : Tree} {rest : List Json} {trees : List Tree}
      (value : Written v.chars ts t) (others : ItemsWritten rest tokens trees) :
      ItemsWritten (v :: rest) (ts ++ .comma :: tokens) (t :: trees)

namespace ItemsWritten

variable {items : List Json} {trees : List Tree}

theorem scan (written : ItemsWritten items ts trees) (done : List Token) (rest : List Char) :
    (Scan.mk .between done).run (itemChars items ++ ']' :: rest) =
      (Scan.mk .between (ts.reverse ++ done)).run (']' :: rest) := by
  induction written generalizing done with
  | one value => exact Scan.run_value value.tokens rfl done
  | @more v ts tokens t rest' trees value others ih =>
    have chars : itemChars (v :: rest') ++ ']' :: rest =
        v.chars ++ ',' :: (itemChars rest' ++ ']' :: rest) := by
      cases others <;> simp [itemChars]
    have comma (done : List Token) (rest : List Char) : (Scan.mk .between done).run (',' :: rest) =
        (Scan.mk .between (.comma :: done)).run rest := rfl
    rw [chars, Scan.run_value value.tokens rfl, comma, ih]
    simp

theorem read_item {tree : Tree} (value : (Awaited.value [] false).run ts = some (.more [] tree))
    (stack : List Frame) (before : List Tree) (rest : List Token) :
    (Awaited.value (.array before :: stack) false).run (ts ++ rest) =
      (Awaited.more (.array before :: stack) tree).run rest := by
  have inside := Awaited.run_inside (.array before :: stack) value
  simp only [Awaited.inside, List.nil_append] at inside
  rw [Awaited.run_append, inside, Option.bind_some]

theorem read (written : ItemsWritten items ts trees) (stack : List Frame) (before : List Tree) :
    (Awaited.value (.array before :: stack) false).run (ts ++ [.closeArray]) =
      some (.more stack (.array (before.reverse ++ trees))) := by
  induction written generalizing before with
  | one value =>
    rw [read_item value.value]
    simp [Awaited.run, Awaited.step]
  | @more v ts tokens t rest trees value others ih =>
    have next := ih (t :: before)
    rw [List.reverse_cons, List.append_assoc, List.singleton_append] at next
    rw [List.append_assoc, read_item value.value]
    exact next

/-- An array is read back item by item. -/
theorem array (written : ItemsWritten items ts trees) :
    Written (Json.array items).chars (.openArray :: ts ++ [.closeArray]) (.array trees) where
  tokens := by
    have opens : (Scan.mk .between []).run ('[' :: (itemChars items ++ ']' :: [])) =
        (Scan.mk .between [.openArray]).run (itemChars items ++ ']' :: []) := rfl
    rw [chars, tokens?, List.cons_append, opens, written.scan]
    simp [Scan.run, Scan.step, Scan.begin, Scan.isGap, Scan.emit, Scan.finish]
  value := by
    rw [List.cons_append, Awaited.run]
    exact Awaited.run_fresh (written.read [] [])

end ItemsWritten

/-- The syntax of the text of a value. -/
def tree (v : Json) : Tree := (Tree.parse? v.chars).getD .null

theorem Written.tree_eq (written : Written v.chars ts t) : v.tree = t := by
  rw [tree, written.parse?, Option.getD_some]

/-- An array is read back if its items are. -/
theorem written_array {items : List Json} (written : ∀ v ∈ items, ∃ ts, Written v.chars ts v.tree) :
    ∃ ts, Written (Json.array items).chars ts (.array (items.map tree)) := by
  have items_written (some' : items ≠ []) : ∃ ts, ItemsWritten items ts (items.map tree) := by
    induction items with
    | nil => contradiction
    | cons v rest ih =>
      obtain ⟨⟨ts, value⟩, others⟩ := List.forall_mem_cons.mp written
      rcases eq_or_ne rest [] with rfl | more
      · exact ⟨_, .one value⟩
      · obtain ⟨tokens, others⟩ := ih others more
        exact ⟨_, .more value others⟩
  rcases eq_or_ne items [] with rfl | some'
  · exact ⟨_, rfl, rfl⟩
  · obtain ⟨ts, written⟩ := items_written some'
    exact ⟨_, written.array⟩

/-- A member as it is read: its name and the syntax of its value. -/
def memberTree (m : String × Json) : List Piece × Tree := (pieces m.1, m.2.tree)

/-- An object is read back if its members are. -/
theorem written_object {members : List (String × Json)}
    (written : ∀ m ∈ members, ∃ ts, Written m.2.chars ts m.2.tree) :
    ∃ ts, Written (Json.object members).chars ts (.object (members.map memberTree)) := by
  have members_written (some' : members ≠ []) :
      ∃ ts, MembersWritten members ts (members.map memberTree) := by
    induction members with
    | nil => contradiction
    | cons m rest ih =>
      obtain ⟨⟨ts, value⟩, others⟩ := List.forall_mem_cons.mp written
      rcases eq_or_ne rest [] with rfl | more
      · exact ⟨_, .one value⟩
      · obtain ⟨tokens, others⟩ := ih others more
        exact ⟨_, .more value others⟩
  rcases eq_or_ne members [] with rfl | some'
  · exact ⟨_, rfl, rfl⟩
  · obtain ⟨ts, written⟩ := members_written some'
    exact ⟨_, written.object⟩

theorem jsonItems_map_tree {items : List Json}
    (reads : ∀ v ∈ items, Reader.json depth v.tree = some v) :
    Reader.jsonItems depth (items.map tree) = some items := by
  induction items with
  | nil => rfl
  | cons v rest ih =>
    obtain ⟨read, others⟩ := List.forall_mem_cons.mp reads
    simp only [List.map_cons, Reader.jsonItems, read, ih others]

theorem jsonMembers_map_memberTree {members : List (String × Json)}
    (reads : ∀ m ∈ members, Reader.json depth m.2.tree = some m.2) :
    Reader.jsonMembers depth (members.map memberTree) = some members := by
  induction members with
  | nil => rfl
  | cons m rest ih =>
    obtain ⟨read, others⟩ := List.forall_mem_cons.mp reads
    simp only [List.map_cons, memberTree, Reader.jsonMembers, Piece.text?_pieces, read, ih others]

theorem insertMember_of_lt {members : List (String × Json)} {name : String}
    (last : ∀ m ∈ members, m.1 < name) : insertMember name v members = members ++ [(name, v)] := by
  induction members with
  | nil => rfl
  | cons m rest ih =>
    obtain ⟨less, others⟩ := List.forall_mem_cons.mp last
    have other : name ≠ m.1 := fun same => String.lt_irrefl _ (same ▸ less)
    rw [insertMember, if_neg (String.lt_asymm less), if_neg other, ih others, List.cons_append]

/-- Members that stand in their order stay in it. -/
theorem sortMembers_of_sorted {members : List (String × Json)}
    (sorted : members.Pairwise fun m m' => m.1 < m'.1) : sortMembers members = members := by
  have behind (before rest : List (String × Json))
      (sorted : (before ++ rest).Pairwise fun m m' => m.1 < m'.1) :
      rest.foldl (fun sorted m => insertMember m.1 m.2 sorted) before = before ++ rest := by
    induction rest generalizing before with
    | nil => simp
    | cons m rest ih =>
      have last : ∀ m' ∈ before, m'.1 < m.1 := fun m' member =>
        (List.pairwise_append.mp sorted).2.2 m' member m List.mem_cons_self
      rw [List.foldl_cons, insertMember_of_lt last, ih _ (by simpa using sorted)]
      simp
  exact behind [] members sorted

theorem Readable.written_and_read (readable : Readable depth v) :
    (∃ ts, Written v.chars ts v.tree) ∧
      ((∀ n, v.HasNumber n → n.ReadsBack) → Reader.json depth v.tree = some v) := by
  have done {ts : List Token} {t : Tree} {v : Json} {depth : ℕ} (written : Written v.chars ts t)
      (read : (∀ n, v.HasNumber n → n.ReadsBack) → Reader.json depth t = some v) :
      (∃ ts, Written v.chars ts v.tree) ∧
        ((∀ n, v.HasNumber n → n.ReadsBack) → Reader.json depth v.tree = some v) := by
    rw [written.tree_eq]
    exact ⟨⟨ts, written⟩, read⟩
  induction readable with
  | null => exact done (show Written Json.null.chars [.null] .null from ⟨rfl, rfl⟩) fun _ => rfl
  | bool b => cases b <;> exact done ⟨rfl, rfl⟩ fun _ => rfl
  | number fits =>
    obtain ⟨n, v', token, value, same⟩ := Number.numeral_chars fits
    refine done (t := .number n) ⟨token, rfl⟩ fun numbers => ?_
    rw [Reader.json, value, same (numbers _ (.number _))]
    rfl
  | string s =>
    refine done (written_string s) fun _ => ?_
    simp [Reader.json]
  | array values ih =>
    obtain ⟨ts, written⟩ := written_array fun v member => (ih v member).1
    refine done written fun numbers => ?_
    rw [Reader.json, jsonItems_map_tree fun v member =>
      (ih v member).2 fun n held => numbers n (.item member held)]
    rfl
  | object sorted values ih =>
    obtain ⟨ts, written⟩ := written_object fun m member => (ih m member).1
    refine done written fun numbers => ?_
    rw [Reader.json, jsonMembers_map_memberTree fun m member =>
      (ih m member).2 fun n held => numbers n (.member member held), Option.map_some,
      sortMembers_of_sorted sorted]

/-- The text of a value is JSON text. -/
theorem Readable.written (readable : Readable depth v) : ∃ ts, Written v.chars ts v.tree :=
  readable.written_and_read.1

/-- A value that can be read where so many containers may be opened, and whose numbers are read back. -/
structure Legible (depth : ℕ) (v : Json) : Prop where
  readable : Readable depth v
  numbers : ∀ n, v.HasNumber n → n.ReadsBack

namespace Legible

theorem null : Legible depth .null := ⟨.null, nofun⟩

theorem string (s : String) : Legible depth (.string s) := ⟨.string s, nofun⟩

theorem number {n : Number} (reads : n.ReadsBack) : Legible depth (.number n) :=
  ⟨.number reads.fits, fun _ held => by
    cases held
    exact reads⟩

theorem array {items : List Json} (values : ∀ v ∈ items, Legible depth v) :
    Legible (depth + 1) (.array items) :=
  ⟨.array fun v member => (values v member).readable, fun n held => by
    cases held with
    | item member held => exact (values _ member).numbers n held⟩

theorem object {members : List (String × Json)} (sorted : members.Pairwise fun m m' => m.1 < m'.1)
    (values : ∀ m ∈ members, Legible depth m.2) : Legible (depth + 1) (.object members) :=
  ⟨.object sorted fun m member => (values m member).readable, fun n held => by
    cases held with
    | member member held => exact (values _ member).numbers n held⟩

end Legible

/-- A legible value is read from its own text. -/
theorem Legible.json_tree (legible : Legible depth v) : Reader.json depth v.tree = some v :=
  legible.readable.written_and_read.2 legible.numbers

end WalletSession.Json
