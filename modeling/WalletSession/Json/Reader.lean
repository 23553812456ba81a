import WalletSession.Json.Tree
import WalletSession.Json.Printer

/-! Reading values of a type out of JSON syntax. A reader is told how many containers may still be
opened around what it reads. A record is an object, or an array of its fields in order; unknown
members are passed over unread, and a field may be given once. -/
namespace WalletSession.Json

/-- At most 127 containers may be open around a value that is read. -/
def nestingLimit : Nat := 127

abbrev Reader (α : Type) := Nat → Tree → Option α

namespace Reader

def bool : Reader Bool
  | _, .bool b => some b
  | _, _ => none

def string : Reader String
  | _, .string pieces => Piece.text? pieces
  | _, _ => none

def binary64 : Reader Binary64
  | _, .number n => n.value?.map Number.toBinary64
  | _, _ => none

/-- An integer from 0 to 255, written as one. -/
def byte : Reader UInt8
  | _, .number n =>
    match n.value? with
    | some (.integer i) => if 0 ≤ i ∧ i < 256 then some (.ofNat i.toNat) else none
    | _ => none
  | _, _ => none

def unit : Reader Unit
  | _, .null => some ()
  | _, _ => none

def option {α : Type} (read : Reader α) : Reader (Option α)
  | _, .null => some none
  | depth, t => (read depth t).map some

def list {α : Type} (read : Reader α) : Reader (List α)
  | depth + 1, .array items => items.mapM (read depth)
  | _, _ => none

mutual

/-- Any value. Its members are sorted by name, and of several of one name the last counts. -/
def json : Reader Json
  | _, .null => some .null
  | _, .bool b => some (.bool b)
  | _, .number n => n.value?.map .number
  | _, .string pieces => (Piece.text? pieces).map .string
  | depth + 1, .array items => (jsonItems depth items).map .array
  | depth + 1, .object members =>
    (jsonMembers depth members).map fun ms => .object (sortMembers ms)
  | 0, .array _ | 0, .object _ => none

def jsonItems : Nat → List Tree → Option (List Json)
  | _, [] => some []
  | depth, t :: rest =>
    match json depth t, jsonItems depth rest with
    | some v, some vs => some (v :: vs)
    | _, _ => none

def jsonMembers : Nat → List (List Piece × Tree) → Option (List (String × Json))
  | _, [] => some []
  | depth, (name, t) :: rest =>
    match Piece.text? name, json depth t, jsonMembers depth rest with
    | some name, some v, some vs => some ((name, v) :: vs)
    | _, _, _ => none

end

/-- The names under which each field of a record may be given. -/
abbrev Fields := List (List String)

/-- What is written for each field, in the order of the fields. -/
abbrev Slots := List (Option Tree)

/-- Fills the slot of a member. A field that is given twice is an error. -/
def fill (fields : Fields) (slots : Slots) (name : String) (t : Tree) : Option Slots :=
  match fields.findIdx? (·.contains name) with
  | none => some slots
  | some i =>
    match slots[i]? with
    | some none => some (slots.set i (some t))
    | _ => none

/-- Fills the slots from the members of an object. -/
def fillAll (fields : Fields) : Slots → List (List Piece × Tree) → Option Slots
  | slots, [] => some slots
  | slots, (name, t) :: rest =>
    match Piece.text? name with
    | none => none
    | some name =>
      match fill fields slots name t with
      | none => none
      | some slots => fillAll fields slots rest

def emptySlots (fields : Fields) : Slots := fields.map fun _ => none

def slots (fields : Fields) : Tree → Option Slots
  | .object members => fillAll fields (emptySlots fields) members
  | .array items =>
    if items.length ≤ fields.length then
      some (items.map some ++ List.replicate (fields.length - items.length) none)
    else none
  | _ => none

/-- A record: its container takes one from the depth that its fields may use. -/
def record {α : Type} (fields : Fields) (build : Nat → Slots → Option α) : Reader α
  | 0, _ => none
  | depth + 1, t => (slots fields t).bind (build depth)

def required {α : Type} (read : Reader α) (depth : Nat) : Option Tree → Option α
  | none => none
  | some t => read depth t

/-- A field that may be missing; null says the same. -/
def optional {α : Type} (read : Reader α) (depth : Nat) : Option Tree → Option (Option α)
  | none => some none
  | some t => option read depth t

def withDefault {α : Type} (value : α) (read : Reader α) (depth : Nat) : Option Tree → Option α
  | none => some value
  | some t => read depth t

/-- Reads a whole text. -/
def decode? {α : Type} (read : Reader α) (text : String) : Option α :=
  (Tree.parse? text.toList).bind (read nestingLimit)

end Reader

/-- The value that a text holds. -/
def parse? (text : String) : Option Json := Reader.json.decode? text

end WalletSession.Json

namespace WalletSession

/-- A type with a JSON form. -/
class Wire (α : Type) where
  toJson : α → Json
  read : Json.Reader α

namespace Wire

variable {α : Type} [Wire α]

def encode (a : α) : String := (toJson a).render

def decode? (text : String) : Option α := (read : Json.Reader α).decode? text

end Wire

open Json

def Json.ofOption {α : Type} (f : α → Json) : Option α → Json
  | none => .null
  | some a => f a

instance : Wire Bool := ⟨.bool, Reader.bool⟩

instance : Wire String := ⟨.string, Reader.string⟩

instance : Wire Json := ⟨id, Reader.json⟩

instance : Wire Unit := ⟨fun _ => .null, Reader.unit⟩

end WalletSession
