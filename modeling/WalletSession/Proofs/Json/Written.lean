import WalletSession.Json.Tree
import WalletSession.Proofs.Json.Quoting

/-! Reading back what the printer writes, value by value. A value that is read back alone is read
back as a member, and so an object is read back if its members are. -/
namespace WalletSession.Json

namespace Awaited

variable {a next : Awaited} {t : Token} {ts : List Token}

/-- The same place, inside more containers. -/
def inside (outer : List Frame) : Awaited → Awaited
  | .value stack fresh => .value (stack ++ outer) fresh
  | .name stack members fresh => .name (stack ++ outer) members fresh
  | .colon stack members key => .colon (stack ++ outer) members key
  | .more stack v => .more (stack ++ outer) v

theorem step_inside (outer : List Frame) (stepped : a.step t = some next) :
    (a.inside outer).step t = some (next.inside outer) := by
  unfold step at stepped
  split at stepped <;> cases stepped <;> rfl

theorem run_inside (outer : List Frame) (ran : a.run ts = some next) :
    (a.inside outer).run ts = some (next.inside outer) := by
  induction ts generalizing a with
  | nil =>
    cases ran
    rfl
  | cons t ts ih =>
    rw [run] at ran ⊢
    cases stepped : a.step t with
    | none => simp [stepped] at ran
    | some b =>
      rw [stepped] at ran
      rw [step_inside outer stepped]
      exact ih ran

end Awaited

/-- A text with its tokens and the one value that they are. -/
structure Written (cs : List Char) (ts : List Token) (tree : Tree) : Prop where
  tokens : tokens? cs = some ts
  value : (Awaited.value [] false).run ts = some (.more [] tree)

variable {cs : List Char} {ts : List Token} {tree : Tree}

theorem Written.parse? (written : Written cs ts tree) : Tree.parse? cs = some tree := by
  rw [Tree.parse?, written.tokens, Option.bind_some, written.value]
  rfl

theorem written_of_parse? (parsed : Tree.parse? cs = some tree) : ∃ ts, Written cs ts tree := by
  obtain ⟨ts, tokens, read⟩ := Option.bind_eq_some_iff.mp parsed
  obtain ⟨last, ran, finished⟩ := Option.bind_eq_some_iff.mp read
  refine ⟨ts, tokens, ?_⟩
  unfold Awaited.finish at finished
  split at finished
  next => cases finished; exact ran
  next => contradiction

/-- The members of an object, their tokens and what is read of them. -/
inductive MembersWritten : List (String × Json) → List Token → List (List Piece × Tree) → Prop
  | one {name : String} {v : Json} {ts : List Token} {tree : Tree}
      (value : Written v.chars ts tree) :
      MembersWritten [(name, v)] (.string (pieces name) :: .colon :: ts) [(pieces name, tree)]
  | more {name : String} {v : Json} {ts tokens : List Token} {tree : Tree}
      {rest : List (String × Json)} {trees : List (List Piece × Tree)}
      (value : Written v.chars ts tree) (others : MembersWritten rest tokens trees) :
      MembersWritten ((name, v) :: rest)
        (.string (pieces name) :: .colon :: (ts ++ .comma :: tokens)) ((pieces name, tree) :: trees)

namespace MembersWritten

variable {members : List (String × Json)} {trees : List (List Piece × Tree)}

/-- The name of a member, its colon and its value, up to what ends the value. -/
theorem scan_member {name : String} {v : Json} (value : Written v.chars ts tree) (done : List Token)
    {c : Char} (ends : endsValue c = true) (rest : List Char) :
    (Scan.mk .between done).run (quote name ++ ':' :: (v.chars ++ c :: rest)) =
      (Scan.mk .between ((.string (pieces name) :: .colon :: ts).reverse ++ done)).run (c :: rest) := by
  rw [Scan.run_quote]
  have colon : (Scan.mk .between (.string (pieces name) :: done)).run (':' :: (v.chars ++ c :: rest)) =
      (Scan.mk .between (.colon :: .string (pieces name) :: done)).run (v.chars ++ c :: rest) := rfl
  rw [colon, Scan.run_value value.tokens ends]
  simp

theorem scan (written : MembersWritten members ts trees) (done : List Token) (rest : List Char) :
    (Scan.mk .between done).run (memberChars members ++ '}' :: rest) =
      (Scan.mk .between (ts.reverse ++ done)).run ('}' :: rest) := by
  induction written generalizing done with
  | one value =>
    rw [memberChars, List.append_assoc, List.cons_append]
    exact scan_member value done rfl rest
  | @more name v ts tokens tree rest' trees value others ih =>
    have chars : memberChars ((name, v) :: rest') ++ '}' :: rest =
        quote name ++ ':' :: (v.chars ++ ',' :: (memberChars rest' ++ '}' :: rest)) := by
      cases others <;> simp [memberChars]
    have comma (done : List Token) (rest : List Char) : (Scan.mk .between done).run (',' :: rest) =
        (Scan.mk .between (.comma :: done)).run rest := rfl
    rw [chars, scan_member value done rfl, comma, ih]
    simp

theorem read_member {key : List Piece} (value : (Awaited.value [] false).run ts = some (.more [] tree))
    (stack : List Frame) (before : List (List Piece × Tree)) (fresh : Bool) (rest : List Token) :
    (Awaited.name stack before fresh).run (.string key :: .colon :: (ts ++ rest)) =
      (Awaited.more (.object before key :: stack) tree).run rest := by
  have inside := Awaited.run_inside (.object before key :: stack) value
  simp only [Awaited.inside, List.nil_append] at inside
  simp only [Awaited.run, Awaited.step, Awaited.run_append, inside, Option.bind_some]

theorem read (written : MembersWritten members ts trees) (stack : List Frame)
    (before : List (List Piece × Tree)) (fresh : Bool) :
    (Awaited.name stack before fresh).run (ts ++ [.closeObject]) =
      some (.more stack (.object (before.reverse ++ trees))) := by
  induction written generalizing before fresh with
  | @one name v ts tree value =>
    rw [List.cons_append, List.cons_append, read_member value.value]
    simp [Awaited.run, Awaited.step]
  | @more name v ts tokens tree rest trees value others ih =>
    have next := ih ((pieces name, tree) :: before) false
    rw [List.reverse_cons, List.append_assoc, List.singleton_append] at next
    rw [List.cons_append, List.cons_append, List.append_assoc, read_member value.value]
    exact next

/-- An object is read back member by member. -/
theorem object (written : MembersWritten members ts trees) :
    Written (Json.object members).chars (.openObject :: ts ++ [.closeObject]) (.object trees) where
  tokens := by
    have opens : (Scan.mk .between []).run ('{' :: (memberChars members ++ '}' :: [])) =
        (Scan.mk .between [.openObject]).run (memberChars members ++ '}' :: []) := rfl
    rw [chars, tokens?, List.cons_append, opens, written.scan]
    simp [Scan.run, Scan.step, Scan.begin, Scan.isGap, Scan.emit, Scan.finish]
  value := by
    have next := written.read [] [] true
    rw [List.cons_append, Awaited.run]
    exact next

end MembersWritten

theorem written_string (s : String) :
    Written (Json.string s).chars [.string (pieces s)] (.string (pieces s)) where
  tokens := by
    have read : (Scan.mk .between []).run (quote s) = some ⟨.between, [.string (pieces s)]⟩ := by
      rw [← List.append_nil (quote s), Scan.run_quote]
      rfl
    rw [chars, tokens?, read]
    rfl
  value := rfl

end WalletSession.Json
