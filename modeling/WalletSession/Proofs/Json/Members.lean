import Mathlib.Data.List.Nodup
import WalletSession.Json.Reader

/-! Which texts a record is read from. Of the members of an object it counts only which values are
given for each of the fields: neither their order nor what else is written makes a difference, as long
as no field is given twice. -/
namespace WalletSession.Json.Reader

/-- The values that are given under one of the names. -/
def given (names : List String) (ms : List (List Piece × Tree)) : List Tree :=
  ms.filterMap fun m => if (Piece.text? m.1).any (names.contains ·) then some m.2 else none

variable {names : List String} {fields : Fields} {slots final : Slots} {name : String}
  {key : List Piece} {t : Tree} {ms : List (List Piece × Tree)}

theorem given_append (names : List String) (ms ms' : List (List Piece × Tree)) :
    given names (ms ++ ms') = given names ms ++ given names ms' := List.filterMap_append

theorem given_cons_of_mem (read : Piece.text? key = some name) (member : name ∈ names) :
    given names ((key, t) :: ms) = t :: given names ms := by
  simp [given, read, member]

theorem given_cons_of_notMem (read : Piece.text? key = some name) (other : name ∉ names) :
    given names ((key, t) :: ms) = given names ms := by
  simp [given, read, other]

/-- No two fields share a name. -/
theorem index_unique (apart : fields.flatten.Nodup) {i j : ℕ} (hi : i < fields.length)
    (hj : j < fields.length) (first : name ∈ fields[i]) (second : name ∈ fields[j]) : i = j := by
  have disjoint := List.pairwise_iff_getElem.mp (List.nodup_flatten.mp apart).2
  rcases Nat.lt_trichotomy i j with less | eq | more
  · exact absurd second (disjoint i j hi hj less first)
  · exact eq
  · exact absurd first (disjoint j i hj hi more second)

theorem toList_injective {α : Type} : Function.Injective (Option.toList (α := α)) := by
  rintro (_ | a) (_ | b) eq <;> simp_all

/-- Each slot holds the values that are given for its field, behind what it held before. -/
def Filled (fields : Fields) (slots final : Slots) (ms : List (List Piece × Tree)) : Prop :=
  ∀ i (h : i < fields.length), final[i]?.map Option.toList =
    slots[i]?.map fun slot => slot.toList ++ given fields[i] ms

theorem filled_nil_iff (length : slots.length = fields.length)
    (length' : final.length = fields.length) : Filled fields slots final [] ↔ slots = final := by
  simp only [Filled, given, List.filterMap_nil, List.append_nil]
  constructor
  · intro same
    refine List.ext_getElem (length.trans length'.symm) fun i h h' => ?_
    have eq := same i (length ▸ h)
    rw [List.getElem?_eq_getElem h, List.getElem?_eq_getElem h'] at eq
    exact (toList_injective (Option.some.inj eq)).symm
  · rintro rfl _ _
    rfl

theorem length_fill {slots' : Slots} (filled : fill fields slots name t = some slots') :
    slots'.length = slots.length := by
  unfold fill at filled
  split at filled
  next =>
    cases filled
    rfl
  next =>
    split at filled
    next =>
      cases filled
      exact List.length_set
    next => cases filled

/-- A member goes to the slot of the one field that has its name, if any has. -/
theorem filled_cons_iff (apart : fields.flatten.Nodup) (length : slots.length = fields.length)
    (read : Piece.text? key = some name) {slots' : Slots}
    (filled : fill fields slots name t = some slots') :
    Filled fields slots final ((key, t) :: ms) ↔ Filled fields slots' final ms := by
  unfold fill at filled
  split at filled
  next unknown =>
    cases filled
    refine forall₂_congr fun i h => ?_
    have other : name ∉ fields[i] := by
      simpa using List.findIdx?_eq_none_iff.mp unknown fields[i] (List.getElem_mem h)
    rw [given_cons_of_notMem read other]
  next i found =>
    obtain ⟨inside, member, -⟩ := List.findIdx?_eq_some_iff_getElem.mp found
    have member : name ∈ fields[i] := by simpa using member
    split at filled
    next free =>
      cases filled
      refine forall₂_congr fun j h => ?_
      rcases eq_or_ne i j with rfl | other
      · rw [given_cons_of_mem read member, free, List.getElem?_set_self (length ▸ inside)]
        simp
      · have apart' : name ∉ fields[j] := fun same =>
          other (index_unique apart inside h member same)
        rw [given_cons_of_notMem read apart', List.getElem?_set_ne other]
    next => cases filled

/-- No slot holds two values. -/
theorem not_filled_cons (length : slots.length = fields.length) (read : Piece.text? key = some name)
    (full : fill fields slots name t = none) : ¬Filled fields slots final ((key, t) :: ms) := by
  intro filled
  unfold fill at full
  split at full
  next => cases full
  next i found =>
    obtain ⟨inside, member, -⟩ := List.findIdx?_eq_some_iff_getElem.mp found
    have member : name ∈ fields[i] := by simpa using member
    have stands : slots[i]? = some slots[i] := List.getElem?_eq_getElem (length ▸ inside)
    have eq := filled i inside
    rw [stands, given_cons_of_mem read member] at eq
    rw [stands] at full
    cases held : slots[i] with
    | none => simp [held] at full
    | some u =>
      rw [held] at eq
      cases last : final[i]? with
      | none => simp [last] at eq
      | some o => cases o <;> simp [last] at eq

/-- The slots are filled with the values that are given for their fields. -/
theorem fillAll_eq_some_iff (apart : fields.flatten.Nodup) (length : slots.length = fields.length) :
    fillAll fields slots ms = some final ↔
      (∀ m ∈ ms, (Piece.text? m.1).isSome = true) ∧ final.length = fields.length ∧
        Filled fields slots final ms := by
  induction ms generalizing slots with
  | nil =>
    rw [fillAll, Option.some.injEq]
    constructor
    · rintro rfl
      exact ⟨by simp, length, (filled_nil_iff length length).mpr rfl⟩
    · rintro ⟨-, length', filled⟩
      exact (filled_nil_iff length length').mp filled
  | cons m ms ih =>
    obtain ⟨key, t⟩ := m
    rw [fillAll, List.forall_mem_cons]
    cases read : Piece.text? key with
    | none => simp
    | some name =>
      simp only [Option.isSome_some, true_and]
      cases filled : fill fields slots name t with
      | none => simp [not_filled_cons length read filled]
      | some slots' =>
        rw [filled_cons_iff apart length read filled, ih ((length_fill filled).trans length)]

/-- A record is read from an object whose names can be read and give each field one value at most. -/
theorem slots_object_eq_some_iff (apart : fields.flatten.Nodup) :
    Reader.slots fields (.object ms) = some final ↔
      (∀ m ∈ ms, (Piece.text? m.1).isSome = true) ∧
        final.map Option.toList = fields.map (given · ms) := by
  have empty {i : ℕ} (h : i < fields.length) : (emptySlots fields)[i]? = some none := by
    simp [emptySlots, h]
  rw [Reader.slots, fillAll_eq_some_iff apart (by simp [emptySlots])]
  refine and_congr_right' ⟨fun ⟨length, filled⟩ => ?_, fun eq => ?_⟩
  · refine List.ext_getElem? fun i => ?_
    rcases Nat.lt_or_ge i fields.length with h | h
    · rw [List.getElem?_map, filled i h, empty h]
      simp [h]
    · rw [List.getElem?_eq_none (by simpa [length] using h),
        List.getElem?_eq_none (by simpa using h)]
  · refine ⟨by simpa using congrArg List.length eq, fun i h => ?_⟩
    have place := congrArg (·[i]?) eq
    simp only [List.getElem?_map] at place
    rw [place, empty h]
    simp [h]

/-- The value that is given for a field, or that none is, is read as this. -/
def Gives {α : Type} (read : Option Tree → Option α) (values : List Tree) (a : α) : Prop :=
  ∃ slot : Option Tree, slot.toList = values ∧ read slot = some a

/-- In another order the same values are given. -/
theorem Gives.perm {α : Type} {read : Option Tree → Option α} {a : α} {ms' : List (List Piece × Tree)}
    (gives : Gives read (given names ms) a) (same : ms.Perm ms') : Gives read (given names ms') a := by
  obtain ⟨slot, held, reads⟩ := gives
  have perm : slot.toList.Perm (given names ms') := held ▸ same.filterMap _
  refine ⟨slot, ?_, reads⟩
  cases slot with
  | none => exact (List.nil_perm.mp perm).symm
  | some t => exact List.singleton_perm.mp perm

theorem read_of_optional {α : Type} {read : Reader α} {depth : ℕ} {slot : Option Tree} {a : α}
    (given : optional read depth slot = some (some a)) : ∃ t, read depth t = some a := by
  cases slot with
  | none => cases given
  | some t =>
    simp only [optional, option] at given
    split at given
    next => cases given
    next =>
      obtain ⟨b, value, eq⟩ := Option.map_eq_some_iff.mp given
      cases eq
      exact ⟨_, value⟩

end WalletSession.Json.Reader
