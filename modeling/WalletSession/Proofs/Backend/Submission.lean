import WalletSession.Backend.Submission
import WalletSession.Proofs.Json.Members
import WalletSession.Proofs.Json.Values

/-! A signed challenge survives its way to the backend: its text is one flat object with a member for
each field that is there, and the submission is read back from it. -/
namespace WalletSession

namespace Json

open Reader

variable {α : Type} {depth : ℕ} {names : List String} {members : List (String × Json)}

/-- A member stands in an object exactly if its field is present. -/
def Present (read : Reader α) (depth : ℕ) (values : List Tree) : Option α → Prop
  | none => values = []
  | some a => ∃ t, values = [t] ∧ read depth t = some a

theorem tree_string (s : String) : (Json.string s).tree = .string (pieces s) :=
  (written_string s).tree_eq

theorem string_tree (s : String) : Reader.string depth (Json.string s).tree = some s := by
  rw [tree_string]
  exact Piece.text?_pieces s

/-- A field is read from the member that is written for it, if one is. -/
theorem optional_tree {read : Reader α} {f : α → Json} {o : Option α}
    (reads : ∀ a ∈ o, read depth (f a).tree = some a) (proper : ∀ a ∈ o, (f a).tree ≠ .null) :
    Reader.optional read depth (o.map fun a => (f a).tree) = some o := by
  cases o with
  | none => rfl
  | some a =>
    have value := reads a rfl
    have other := proper a rfl
    simp only [Option.map_some, Reader.optional, Reader.option]
    rw [value, Option.map_some]

end Json

open Json

namespace SignedMessage

theorem byte_readsBack (b : UInt8) : (Number.integer b.toNat).ReadsBack := by
  have small := b.toNat_lt
  constructor <;> omega

theorem byte_tree (depth : ℕ) (b : UInt8) : Reader.byte depth (byteJson b).tree = some b := by
  obtain ⟨n, v, token, value, same⟩ := Number.numeral_chars (byte_readsBack b).fits
  have written : Written (byteJson b).chars [.number n] (.number n) := ⟨token, rfl⟩
  have small := b.toNat_lt
  rw [written.tree_eq]
  simp only [Reader.byte, value, same (byte_readsBack b)]
  rw [if_pos (by omega)]
  simp

theorem legible_signature (depth : ℕ) (bytes : List UInt8) :
    Legible (depth + 1) (.array (bytes.map byteJson)) := by
  refine .array fun v member => ?_
  obtain ⟨b, -, rfl⟩ := List.mem_map.mp member
  exact .number (byte_readsBack b)

theorem signature_tree (depth : ℕ) (bytes : List UInt8) :
    Reader.list Reader.byte (depth + 1) (Json.array (bytes.map byteJson)).tree = some bytes := by
  have items : ∀ v ∈ bytes.map byteJson, ∃ ts, Written v.chars ts v.tree := fun v member => by
    obtain ⟨b, -, rfl⟩ := List.mem_map.mp member
    have readable : Readable depth (byteJson b) := .number (byte_readsBack b).fits
    exact readable.written
  obtain ⟨ts, written⟩ := written_array items
  rw [written.tree_eq, Reader.list, List.map_map]
  clear items written
  induction bytes with
  | nil => rfl
  | cons b rest ih => simp [byte_tree, ih]

/-- The member for an optional field is given under its name, if the field is present. -/
theorem given_presentMember {α : Type} (names : List String) (name : String) (f : α → Json)
    (o : Option α) : Reader.given names ((presentMember name f o).map memberTree) =
      if name ∈ names then (o.map fun a => (f a).tree).toList else [] := by
  have read : Piece.text? (pieces name) = some name := Piece.text?_pieces name
  cases o with
  | none => simp [presentMember, Reader.given]
  | some a =>
    split
    next member => exact Reader.given_cons_of_mem read member
    next other => exact Reader.given_cons_of_notMem read other

end SignedMessage

namespace SignatureSubmission

open Reader SignedMessage

/-- The members of an object carry a submission: no name is repeated or unknown, each field that must
be there is, and the others are exactly if they are present. -/
structure CarriedBy (depth : ℕ) (ms : List (List Piece × Tree)) (s : SignatureSubmission) : Prop where
  names : ∃ names : List String, ms.map (fun m => Piece.text? m.1) = names.map some ∧ names.Nodup ∧
    ∀ name ∈ names, name ∈ fields.flatten
  message : Gives (required string depth) (given ["message"] ms) s.signed.message
  nonce : Gives (required string depth) (given ["nonce"] ms) s.signed.nonce
  signature : Gives (required (list byte) depth) (given ["signature"] ms) s.signed.signature
  publicKey : Gives (required string depth) (given ["publicKey"] ms) s.publicKey
  address : Present string depth (given ["address"] ms) s.signed.address
  application : Present string depth (given ["application"] ms) s.signed.application
  chainId : Present json depth (given ["chainId"] ms) s.signed.chainId
  fullMessage : Present string depth (given ["fullMessage"] ms) s.signed.fullMessage
  leading : Present string depth (given ["prefix"] ms) s.signed.leading

variable {s : SignatureSubmission} {depth : ℕ}

/-- What is written for a submission. -/
def members (s : SignatureSubmission) : List (String × Json) :=
  s.signed.members ++ [("publicKey", .string s.publicKey)]

/-- A field that must be there is written like an optional one that is present. -/
theorem members_eq (s : SignatureSubmission) : s.members =
    presentMember "message" .string (some s.signed.message) ++
    presentMember "nonce" .string (some s.signed.nonce) ++
    presentMember "signature" id (some (.array (s.signed.signature.map byteJson))) ++
    presentMember "address" .string s.signed.address ++
    presentMember "application" .string s.signed.application ++
    presentMember "chainId" id s.signed.chainId ++
    presentMember "fullMessage" .string s.signed.fullMessage ++
    presentMember "prefix" .string s.signed.leading ++
    presentMember "publicKey" .string (some s.publicKey) := rfl

/-- What is written for each field, in the order in which the fields are read. -/
def slotTrees (s : SignatureSubmission) : Slots :=
  [some (Json.string s.publicKey).tree, some (Json.string s.signed.message).tree,
    some (Json.string s.signed.nonce).tree,
    some (Json.array (s.signed.signature.map byteJson)).tree,
    s.signed.address.map fun a => (Json.string a).tree,
    s.signed.application.map fun a => (Json.string a).tree, s.signed.chainId.map tree,
    s.signed.fullMessage.map fun a => (Json.string a).tree,
    s.signed.leading.map fun a => (Json.string a).tree]

theorem map_given_members (s : SignatureSubmission) :
    fields.map (given · (s.members.map memberTree)) = s.slotTrees.map Option.toList := by
  simp only [fields, SignedMessage.fields, members_eq, List.map_append, given_append,
    given_presentMember, List.map_cons, List.map_nil]
  simp [slotTrees]

theorem names_presentMember {α : Type} (name : String) (f : α → Json) (o : Option α) :
    ((presentMember name f o).map (·.1)).Sublist [name] := by
  cases o <;> simp [presentMember]

/-- No name is written twice. -/
theorem names_sublist (s : SignatureSubmission) : (s.members.map (·.1)).Sublist
    ["message", "nonce", "signature", "address", "application", "chainId", "fullMessage", "prefix",
      "publicKey"] := by
  rw [members_eq]
  simp only [List.map_append]
  exact ((((((((names_presentMember _ _ _).append (names_presentMember _ _ _)).append
    (names_presentMember _ _ _)).append (names_presentMember _ _ _)).append
    (names_presentMember _ _ _)).append (names_presentMember _ _ _)).append
    (names_presentMember _ _ _)).append (names_presentMember _ _ _)).append
    (names_presentMember _ _ _)

theorem legible_presentMember {α : Type} {name : String} {f : α → Json} {o : Option α}
    (legible : ∀ a ∈ o, Legible depth (f a)) : ∀ m ∈ presentMember name f o, Legible depth m.2 := by
  cases o with
  | none => simp [presentMember]
  | some a => simpa [presentMember] using legible a rfl

theorem legible_members (values : ∀ v ∈ s.signed.chainId, Legible (depth + 1) v) :
    ∀ m ∈ s.members, Legible (depth + 1) m.2 := by
  have text {name : String} {o : Option String} :
      ∀ m ∈ presentMember name Json.string o, Legible (depth + 1) m.2 :=
    legible_presentMember fun a _ => .string a
  have signature : ∀ m ∈ presentMember "signature" id
      (some (Json.array (s.signed.signature.map byteJson))), Legible (depth + 1) m.2 :=
    legible_presentMember fun v held => by
      cases held
      exact legible_signature depth s.signed.signature
  have chainId : ∀ m ∈ presentMember "chainId" id s.signed.chainId, Legible (depth + 1) m.2 :=
    legible_presentMember values
  rw [members_eq]
  simp only [List.forall_mem_append]
  exact ⟨⟨⟨⟨⟨⟨⟨⟨text, text⟩, signature⟩, text⟩, text⟩, chainId⟩, text⟩, text⟩, text⟩

theorem string_tree_ne_null (a : String) : (Json.string a).tree ≠ .null := by
  rw [tree_string]
  nofun

theorem optional_string (o : Option String) :
    Reader.optional Reader.string depth (o.map fun a => (Json.string a).tree) = some o :=
  optional_tree (fun _ _ => string_tree _) fun a _ => string_tree_ne_null a

variable (values : ∀ v ∈ s.signed.chainId, v ≠ .null ∧ Legible (depth + 1) v)

include values in
/-- The fields are read from what is written for them. -/
theorem read_members : SignatureSubmission.read (depth + 2) (.object (s.members.map memberTree)) =
    some s := by
  have legible := legible_members fun v held => (values v held).2
  have all : jsonMembers (depth + 1) (s.members.map memberTree) = some s.members :=
    jsonMembers_map_memberTree fun m member => (legible m member).json_tree
  have filled : fillAll fields (emptySlots fields) (s.members.map memberTree) = some s.slotTrees := by
    refine (slots_object_eq_some_iff (by decide)).mpr ⟨fun m member => ?_, (map_given_members s).symm⟩
    obtain ⟨m, -, rfl⟩ := List.mem_map.mp member
    simp [memberTree]
  have chainId : Reader.optional Reader.json (depth + 1) (s.signed.chainId.map tree) =
      some s.signed.chainId := by
    refine optional_tree (f := id) (fun v held => (values v held).2.json_tree) fun v held null => ?_
    have read := (values v held).2.json_tree
    rw [show v.tree = .null from null] at read
    cases read
    exact (values _ held).1 rfl
  rw [SignatureSubmission.read, all, filled]
  simp [slotTrees, ofSlots, required, string_tree, signature_tree, optional_string, chainId]

theorem present_string {name : String} {ms : List (List Piece × Tree)} {o : Option String}
    (held : given [name] ms = (o.map fun a => (Json.string a).tree).toList) :
    Present string depth (given [name] ms) o := by
  cases o with
  | none => exact held
  | some a => exact ⟨_, held, string_tree a⟩

include values in
theorem carriedBy_members : s.CarriedBy (depth + 1) (s.members.map memberTree) where
  names := by
    refine ⟨s.members.map (·.1), by simp [memberTree], s.names_sublist.nodup (by decide),
      fun name member => ?_⟩
    have known : ∀ name ∈ ["message", "nonce", "signature", "address", "application", "chainId",
        "fullMessage", "prefix", "publicKey"], name ∈ fields.flatten := by decide
    exact known name (s.names_sublist.subset member)
  message := ⟨some (Json.string s.signed.message).tree,
    by simp [members_eq, given_append, given_presentMember], string_tree _⟩
  nonce := ⟨some (Json.string s.signed.nonce).tree,
    by simp [members_eq, given_append, given_presentMember], string_tree _⟩
  signature := ⟨some (Json.array (s.signed.signature.map byteJson)).tree,
    by simp [members_eq, given_append, given_presentMember], signature_tree _ _⟩
  publicKey := ⟨some (Json.string s.publicKey).tree,
    by simp [members_eq, given_append, given_presentMember], string_tree _⟩
  address := present_string (by simp [members_eq, given_append, given_presentMember])
  application := present_string (by simp [members_eq, given_append, given_presentMember])
  chainId := by
    have held : given ["chainId"] (s.members.map memberTree) = (s.signed.chainId.map tree).toList := by
      simp [members_eq, given_append, given_presentMember]
    rw [held]
    cases given : s.signed.chainId with
    | none => rfl
    | some v => exact ⟨_, rfl, (values v given).2.json_tree⟩
  fullMessage := present_string (by simp [members_eq, given_append, given_presentMember])
  leading := present_string (by simp [members_eq, given_append, given_presentMember])

end SignatureSubmission

/-- A submission is read back from its text, which is one flat object of its fields, if what the wallet
says of its chain is a value that can be read inside that object and its numbers are read back. -/
theorem submission_survives (signed : SignedMessage) (publicKey : String)
    (values : ∀ v ∈ signed.chainId, v ≠ .null ∧ Legible (nestingLimit - 1) v) :
    let s : SignatureSubmission := { signed, publicKey }
    Wire.decode? (Wire.encode s) = some s ∧
      ∃ ms, Tree.parse? (Wire.encode s).toList = some (.object ms) ∧
        s.CarriedBy (nestingLimit - 1) ms := by
  intro s
  have legible : ∀ m ∈ s.members, Legible (nestingLimit - 1) m.2 :=
    SignatureSubmission.legible_members fun v held => (values v held).2
  obtain ⟨ts, written⟩ := written_object fun m member => (legible m member).readable.written
  have parsed : Tree.parse? (Wire.encode s).toList = some (.object (s.members.map memberTree)) := by
    rw [Wire.encode, render, String.toList_ofList]
    exact written.parse?
  refine ⟨?_, _, parsed, SignatureSubmission.carriedBy_members values⟩
  rw [Wire.decode?, Reader.decode?, parsed, Option.bind_some]
  exact SignatureSubmission.read_members values

/-- The chain is told by an object that holds an array, and two fields are absent. -/
theorem nested_chain_survives :
    let chain : Json := .object [("id", .array [.number (.integer (-1)), .number (.real (.ofNat 5))]),
      ("name", .null)]
    let signed : SignedMessage :=
      { message := "a\nb", nonce := "\"n\"", signature := [0, 255], address := some "0xé",
        application := some "", chainId := some chain }
    (chain ≠ .null ∧ Legible (nestingLimit - 1) chain) ∧
      Wire.decode? (Wire.encode (SignatureSubmission.mk signed "0xpub")) =
        some (SignatureSubmission.mk signed "0xpub") := by
  intro chain signed
  have items : ∀ v ∈ [Json.number (.integer (-1)), .number (.real (.ofNat 5))], Legible 124 v := by
    simp only [List.forall_mem_cons, List.not_mem_nil, false_imp_iff, implies_true, and_true]
    exact ⟨.number (by decide), .number (by decide +kernel)⟩
  have legible : Legible (nestingLimit - 1) chain := by
    refine .object (by decide +kernel) ?_
    simp only [List.forall_mem_cons, List.not_mem_nil, false_imp_iff, implies_true, and_true]
    exact ⟨.array items, .null⟩
  have values : ∀ v ∈ signed.chainId, v ≠ .null ∧ Legible (nestingLimit - 1) v := by
    rintro v ⟨⟩
    exact ⟨nofun, legible⟩
  exact ⟨values chain rfl, (submission_survives signed "0xpub" values).1⟩

end WalletSession
