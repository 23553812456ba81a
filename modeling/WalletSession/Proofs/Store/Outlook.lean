import Mathlib.Logic.Function.Basic
import WalletSession.Store.FileTree

/-! A tree of files as it looks from its root: what stands at the end of each way down. The order of
entries does not show, a way only depends on the directories, and what an operation does is a change
at one place. -/
namespace WalletSession

/-- What stands at a place. -/
inductive FileKind
  | file (bytes : ByteArray)
  | directory

/-- What stands at the end of each row of names. -/
abbrev Outlook := List String → Option FileKind

namespace Directory

variable {d : Directory} {name other : String} {node : FileNode}

def look (d : Directory) : Outlook
  | [] => some .directory
  | name :: rest =>
    match d.lookup name with
    | none => none
    | some (.file bytes) => if rest = [] then some (.file bytes) else none
    | some (.directory inner) => look inner rest

theorem lookup_erase : (d.erase name).lookup other = if other = name then none else d.lookup other := by
  induction d with
  | nil => simp [erase]
  | cons entry d ih =>
    obtain ⟨n, node⟩ := entry
    rw [erase] at ih
    rw [erase, List.filter_cons]
    by_cases same : other = n
    · subst same
      by_cases kept : other = name
      · simpa [kept] using ih
      · simp [kept]
    · have next : (other == n) = false := beq_false_of_ne same
      by_cases kept : n = name <;> simp [kept, List.lookup_cons, next, ih]
      simp [← kept, next]

theorem lookup_put :
    (d.put name node).lookup other = if other = name then some node else d.lookup other := by
  rw [put, List.lookup_cons, lookup_erase]
  by_cases same : other = name
  · simp [same]
  · simp [beq_false_of_ne same, same]

/-- Below what is no directory there is nothing. -/
theorem look_below {way : List String} (leaf : d.look way ≠ some .directory) (name : String)
    (rest : List String) : d.look (way ++ name :: rest) = none := by
  induction way generalizing d with
  | nil => exact absurd rfl leaf
  | cons first way ih =>
    rw [look] at leaf
    rw [List.cons_append, look]
    split at leaf
    · rfl
    · simp
    · exact ih leaf

end Directory

/-- What stands at the end of a way that begins at a node. -/
def FileNode.look : FileNode → Outlook
  | .file bytes, [] => some (.file bytes)
  | .file _, _ :: _ => none
  | .directory inner, way => Directory.look inner way

theorem Directory.look_cons (d : Directory) (name : String) (rest : List String) :
    d.look (name :: rest) = (d.lookup name).bind (·.look rest) := by
  rw [look]
  split <;> rename_i found <;> rw [found]
  · rfl
  · cases rest <;> rfl
  · rfl

namespace FileTree

def look (t : FileTree) : Outlook := t.root.look

end FileTree

namespace FileCursor

variable {c c' : FileCursor} {name step : String} {node : FileNode}

/-- The names that lead from the root to the directory. -/
def position (c : FileCursor) : List String := (c.above.map Prod.fst).reverse

@[simp] theorem up_tree (c : FileCursor) : c.up.tree = c.tree := by
  obtain ⟨here, _ | ⟨_, _⟩⟩ := c <;> rfl

@[simp] theorem up_position (c : FileCursor) : c.up.position = c.position.dropLast := by
  obtain ⟨here, _ | ⟨_, _⟩⟩ := c <;> simp [up, position]

/-- The directory in its tree is the one at its place. -/
theorem look_here (c : FileCursor) (rest : List String) :
    c.tree.look (c.position ++ rest) = c.here.look rest := by
  obtain ⟨here, above⟩ := c
  induction above generalizing here rest with
  | nil => rfl
  | cons outer above ih =>
    obtain ⟨name, outer⟩ := outer
    have next := ih (name :: rest) (outer.put name (.directory here))
    rw [Directory.look_cons, Directory.lookup_put, if_pos rfl] at next
    rw [position, List.map_cons, List.reverse_cons, List.append_assoc]
    exact next

/-- Another directory in the same place looks the same wherever the two do. -/
theorem look_apart (here here' : Directory) {above : List (String × Directory)} {way : List String}
    (same : ∀ rest, way = (FileCursor.mk here above).position ++ rest →
      here.look rest = here'.look rest) :
    (FileCursor.mk here above).tree.look way = (FileCursor.mk here' above).tree.look way := by
  induction above generalizing here here' with
  | nil => exact same way rfl
  | cons outer above ih =>
    obtain ⟨name, outer⟩ := outer
    refine ih (outer.put name (.directory here)) (outer.put name (.directory here')) fun rest split => ?_
    cases rest with
    | nil => rfl
    | cons first rest =>
      rw [Directory.look_cons, Directory.look_cons, Directory.lookup_put, Directory.lookup_put]
      split
      next own =>
        subst own
        exact same rest (by simpa [position] using split)
      next => rfl

/-- An entry is exchanged that holds no others, and so only its place looks different. -/
theorem look_edit {here : Directory} (leaf : c.tree.look (c.position ++ [name]) ≠ some .directory)
    (others : ∀ other rest, other ≠ name → here.look (other :: rest) = c.here.look (other :: rest))
    (below : ∀ next rest, here.look (name :: next :: rest) = none) :
    { c with here }.tree.look =
      Function.update c.tree.look (c.position ++ [name]) (here.look [name]) := by
  have inside (rest : List String) := look_here { c with here } rest
  funext way
  by_cases own : way = c.position ++ [name]
  · subst own
    rw [Function.update_self]
    exact inside [name]
  rw [Function.update_of_ne own]
  by_cases under : ∃ next rest, way = c.position ++ name :: next :: rest
  · obtain ⟨next, rest, rfl⟩ := under
    have nothing := Directory.look_below leaf next rest
    rw [List.append_assoc] at nothing
    exact ((inside _).trans (below next rest)).trans nothing.symm
  · refine look_apart here c.here fun rest split => ?_
    rcases rest with _ | ⟨other, rest⟩
    · rfl
    · refine others other rest fun same => ?_
      subst same
      rcases rest with _ | ⟨next, rest⟩
      · exact own split
      · exact under ⟨next, rest, split⟩

theorem look_put (leaf : c.tree.look (c.position ++ [name]) ≠ some .directory)
    (bare : ∀ next rest, node.look (next :: rest) = none) :
    { c with here := c.here.put name node }.tree.look =
      Function.update c.tree.look (c.position ++ [name]) (node.look []) := by
  have own (rest : List String) : (c.here.put name node).look (name :: rest) = node.look rest := by
    rw [Directory.look_cons, Directory.lookup_put, if_pos rfl, Option.bind_some]
  rw [look_edit leaf (fun other rest apart => ?_) fun next rest => ?_, own]
  · rw [Directory.look_cons, Directory.look_cons, Directory.lookup_put, if_neg apart]
  · rw [own, bare]

theorem look_erase (leaf : c.tree.look (c.position ++ [name]) ≠ some .directory) :
    { c with here := c.here.erase name }.tree.look =
      Function.update c.tree.look (c.position ++ [name]) none := by
  have own (rest : List String) : (c.here.erase name).look (name :: rest) = none := by
    rw [Directory.look_cons, Directory.lookup_erase, if_pos rfl, Option.bind_none]
  rw [look_edit leaf (fun other rest apart => ?_) fun next rest => own _, own]
  rw [Directory.look_cons, Directory.look_cons, Directory.lookup_erase, if_neg apart]

end FileCursor

namespace Outlook

variable {v v' : Outlook} {start next place : List String} {step : String} {steps : List String}

def enter (v : Outlook) (place : List String) (step : String) : Except FileFault (List String) :=
  if step = "." then .ok place
  else if step = ".." then .ok place.dropLast
  else if !FileCursor.nameFits step then .error .nameTooLong
  else
    match v (place ++ [step]) with
    | none => .error .notFound
    | some (.file _) => .error .notDirectory
    | some .directory => .ok (place ++ [step])

/-- Where a way leads to that passes through directories alone. -/
def walkFrom (v : Outlook) (start : List String) (steps : List String) :
    Except FileFault (List String) := steps.foldlM v.enter start

def walk (v : Outlook) (steps : List String) : Except FileFault (List String) := v.walkFrom [] steps

theorem enter_eq_ok_iff : v.enter place step = .ok next ↔
    step = "." ∧ next = place ∨ step = ".." ∧ next = place.dropLast ∨
      (step ≠ "." ∧ step ≠ ".." ∧ FileCursor.nameFits step = true) ∧
        v (place ++ [step]) = some .directory ∧ next = place ++ [step] := by
  unfold enter
  by_cases dot : step = "."
  · simp [dot, eq_comm (a := next)]
  by_cases dots : step = ".."
  · simp [dots, eq_comm (a := next)]
  cases fits : FileCursor.nameFits step with
  | false => simp [dot, dots]
  | true =>
    rw [if_neg dot, if_neg dots]
    cases v (place ++ [step]) with
    | none => simp [dot, dots]
    | some kind => cases kind <;> simp [dot, dots, eq_comm (a := next)]

theorem walkFrom_cons : v.walkFrom start (step :: steps) =
    (v.enter start step).bind fun next => v.walkFrom next steps := List.foldlM_cons

theorem walkFrom_append {more : List String} : v.walkFrom start (steps ++ more) =
    (v.walkFrom start steps).bind fun next => v.walkFrom next more := List.foldlM_append

end Outlook

namespace FileCursor

theorem enter_cases (c : FileCursor) (step : String) :
    (∃ c', c.enter step = .ok c' ∧ c.tree.look.enter c.position step = .ok c'.position ∧
        c'.tree.look = c.tree.look) ∨
      ∃ e, c.enter step = .error e ∧ c.tree.look.enter c.position step = .error e := by
  unfold enter Outlook.enter
  rw [look_here, Directory.look_cons]
  split
  · exact .inl ⟨c, rfl, rfl, rfl⟩
  split
  · exact .inl ⟨c.up, rfl, by simp, by simp⟩
  split
  · exact .inr ⟨_, rfl, rfl⟩
  cases found : c.here.lookup step with
  | none => exact .inr ⟨_, rfl, rfl⟩
  | some node =>
    cases node with
    | file bytes => exact .inr ⟨_, rfl, rfl⟩
    | directory inner =>
      refine .inl ⟨_, rfl, by simp [position, FileNode.look, Directory.look], ?_⟩
      -- The directory is put back where it was found.
      funext way
      refine look_apart (c.here.put step (.directory inner)) c.here fun rest _ => ?_
      cases rest with
      | nil => rfl
      | cons other rest =>
        rw [Directory.look_cons, Directory.look_cons, Directory.lookup_put]
        split
        next same => rw [same, found]
        next => rfl

end FileCursor

namespace FileTree

variable {t t' : FileTree} {p : FilePath} {place : List String}

theorem walk_cases (t : FileTree) (steps : List String) :
    (∃ c, t.walk steps = .ok c ∧ t.look.walk steps = .ok c.position ∧ c.tree.look = t.look) ∨
      ∃ e, t.walk steps = .error e ∧ t.look.walk steps = .error e := by
  have onward (c : FileCursor) :
      (∃ c', steps.foldlM FileCursor.enter c = .ok c' ∧
          steps.foldlM c.tree.look.enter c.position = .ok c'.position ∧
          c'.tree.look = c.tree.look) ∨
        ∃ e, steps.foldlM FileCursor.enter c = .error e ∧
          steps.foldlM c.tree.look.enter c.position = .error e := by
    induction steps generalizing c with
    | nil => exact .inl ⟨c, rfl, rfl, rfl⟩
    | cons step steps ih =>
      rw [List.foldlM_cons, List.foldlM_cons]
      rcases c.enter_cases step with ⟨c', entered, seen, same⟩ | ⟨e, entered, seen⟩ <;>
        rw [entered, seen]
      · have next := ih c'
        rw [same] at next
        exact next
      · exact .inr ⟨e, rfl, rfl⟩
  exact onward ⟨t.root, []⟩

end FileTree

end WalletSession
