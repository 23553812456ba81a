import WalletSession.Proofs.Store.Changes
import WalletSession.Proofs.Store.Parent
import WalletSession.Proofs.Text.Utf8
import WalletSession.Store.File

/-! The store in a file, as long as the file system serves it: directories that are missing above the
record can be made, and a file can be written in its place. -/
namespace WalletSession

theorem Outlook.Leads.parent {v : Outlook} {p : FilePath} {place : List String} (leads : v.Leads p place) :
    ∃ above, v.walk p.parent.steps = .ok above := by
  obtain ⟨-, -, -, name, before, above, steps, dot, -, -, walked, -⟩ := leads
  exact ⟨above, by rwa [FilePath.parent_steps steps dot]⟩

namespace FileTree

variable {t t' : FileTree} {p : FilePath} {place : List String}

theorem makeDirectories_of_walk (clean : p.isClean = true) (short : p.isShort = true)
    (walked : t.look.walk p.steps = .ok place) : t.makeDirectories p = (.ok (), t) := by
  have there : t.look.walk p.steps.reverse.reverse = .ok place := by rwa [List.reverse_reverse]
  simp [makeDirectories, clean, short, makeSteps_of_walk there]

theorem makeDirectories_cases (t : FileTree) (p : FilePath) :
    (∃ e, t.makeDirectories p = (.error e, t)) ∨ p.isClean = true ∧ p.isShort = true ∧
      t.makeDirectories p = t.makeSteps p.steps.reverse := by
  unfold makeDirectories
  cases p.isClean <;> cases p.isShort <;> simp

theorem makeDirectories_grows (t : FileTree) (p : FilePath) :
    t.look.Grows (t.makeDirectories p).2.look := by
  rcases t.makeDirectories_cases p with ⟨e, eq⟩ | ⟨-, -, eq⟩ <;> rw [eq]
  · exact .refl _
  · exact t.makeSteps_grows _

/-- Once they were made, the directories need not be made again. -/
theorem makeDirectories_again (made : (t.makeDirectories p).1 = .ok ()) :
    (t.makeDirectories p).2.makeDirectories p = (.ok (), (t.makeDirectories p).2) := by
  rcases t.makeDirectories_cases p with ⟨e, eq⟩ | ⟨clean, short, eq⟩
  · simp [eq] at made
  · rw [eq] at made ⊢
    obtain ⟨place, walked⟩ := (t.makeSteps_ok_iff _).mp made
    rw [List.reverse_reverse] at walked
    exact makeDirectories_of_walk clean short walked

theorem find_of_free (leads : t.look.Leads p place) (free : t.look place = none) :
    t.find p = .error .notFound := by
  obtain ⟨c, name, located, -, -, ⟨held, -⟩ | ⟨_, -, stands⟩ | ⟨_, -, stands⟩⟩ := leads_cases leads
  · simp [find_eq, located, held, Except.bind]
  · simp [free] at stands
  · simp [free] at stands

theorem read_of_notFound (missing : t.find p = .error .notFound) :
    t.read p = .error .notFound := by
  rw [read, missing]
  rfl

end FileTree

namespace FileStore

open FileTree Text.Utf8

variable {s : FileStore} {place : List String} {bytes : ByteArray} {raw : Option String}

/-- The text that the record's file holds. -/
def Holds (s : FileStore) : Option String → Prop
  | none => s.tree.find s.path = .error .notFound
  | some raw => s.tree.read s.path = .ok raw.toUTF8

/-- The file system makes the directories above the record and writes a file in its place. -/
def Serves (s : FileStore) : Prop :=
  (s.tree.makeDirectories s.path.parent).1.isOk = true ∧
    ((s.tree.makeDirectories s.path.parent).2.write s.path .empty).isOk = true

instance : Decidable s.Serves := inferInstanceAs (Decidable (_ ∧ _))

theorem serves_iff : s.Serves ↔ ∃ tree place, s.tree.makeDirectories s.path.parent = (.ok (), tree) ∧
    tree.look.Leads s.path place ∧ tree.look place ≠ some .directory := by
  unfold Serves
  obtain ⟨made, tree⟩ := s.tree.makeDirectories s.path.parent
  constructor
  · rintro ⟨done, written⟩
    cases result : tree.write s.path .empty with
    | error e =>
      rw [result] at written
      cases written
    | ok tree' =>
      obtain ⟨place, leads, leaf, -⟩ := write_eq_ok result
      cases made with
      | error e => cases done
      | ok => exact ⟨tree, place, rfl, leads, leaf⟩
  · rintro ⟨tree', place, made, leads, leaf⟩
    cases made
    obtain ⟨tree', written, -⟩ := write_of_leads .empty leads leaf
    rw [written]
    exact ⟨rfl, rfl⟩

/-- Where the record has a place once the directories above it were made. -/
theorem Serves.made (serves : s.Serves) :
    ∃ tree place, s.tree.makeDirectories s.path.parent = (.ok (), tree) ∧
      s.tree.look.Grows tree.look ∧ tree.look.Leads s.path place ∧
      tree.look place ≠ some .directory ∧ { s with tree }.Serves := by
  obtain ⟨tree, place, made, leads, leaf⟩ := serves_iff.mp serves
  have grows := s.tree.makeDirectories_grows s.path.parent
  have again := makeDirectories_again (congrArg Prod.fst made)
  rw [made] at grows again
  exact ⟨tree, place, made, grows, leads, leaf, serves_iff.mpr ⟨tree, place, again, leads, leaf⟩⟩

/-- What is written or removed in the record's place changes nothing about that. -/
theorem Serves.edit (serves : s.Serves) (leads : s.tree.look.Leads s.path place)
    (leaf : s.tree.look place ≠ some .directory) {tree : FileTree} {kind : Option FileKind}
    (look : tree.look = Function.update s.tree.look place kind) (kept : kind ≠ some .directory) :
    { s with tree }.Serves := by
  have keeps : s.tree.look.Keeps tree.look := look ▸ Outlook.keeps_update leaf
  refine serves_iff.mpr ⟨tree, place, ?_, leads.keeps keeps, by rwa [look, Function.update_self]⟩
  obtain ⟨above, way⟩ := (leads.keeps keeps).parent
  obtain ⟨_, _, made, -⟩ := serves_iff.mp serves
  rcases s.tree.makeDirectories_cases s.path.parent with ⟨e, eq⟩ | ⟨clean, short, -⟩
  · simp [eq] at made
  · exact makeDirectories_of_walk clean short way

/-- The record's file can be removed, and then it is gone. -/
theorem clear_of_file (held : s.tree.read s.path = .ok bytes) :
    ∃ tree place, TokenStore.clear s = (.ok (), { s with tree }) ∧ s.tree.look.Leads s.path place ∧
      s.tree.look place = some (.file bytes) ∧
      tree.look = Function.update s.tree.look place none ∧
      tree.find s.path = .error .notFound := by
  obtain ⟨place, leads, stands⟩ := read_eq_ok_iff.mp held
  obtain ⟨tree, removed, look⟩ := removeFile_of_leads leads stands
  have keeps : s.tree.look.Keeps tree.look := look ▸ Outlook.keeps_update (by simp [stands])
  refine ⟨tree, place, ?_, leads, stands, look, ?_⟩
  · change s.clear = _
    simp only [clear, removed]
  · exact find_of_free (leads.keeps keeps) (by rw [look, Function.update_self])

theorem clear_of_notFound (missing : s.tree.find s.path = .error .notFound) :
    TokenStore.clear s = (.ok (), s) := by
  change s.clear = _
  simp only [clear, removeFile_of_notFound missing]

theorem Serves.cleared (serves : s.Serves) (held : s.Holds raw) :
    (TokenStore.clear s).1 = .ok () ∧ (TokenStore.clear s).2.Serves ∧
      (TokenStore.clear s).2.Holds none := by
  cases raw with
  | none =>
    rw [clear_of_notFound held]
    exact ⟨rfl, serves, held⟩
  | some raw =>
    obtain ⟨tree, place, cleared, leads, stands, look, gone⟩ := clear_of_file held
    rw [cleared]
    exact ⟨rfl, serves.edit leads (by simp [stands]) look nofun, gone⟩

theorem Serves.saved (serves : s.Serves) (t : SessionToken) :
    (TokenStore.save s t).1 = .ok () ∧ (TokenStore.save s t).2.Serves ∧
      (TokenStore.save s t).2.Holds (some (Wire.encode t)) := by
  obtain ⟨tree, place, made, -, leads, leaf, serves⟩ := serves.made
  obtain ⟨tree', written, look⟩ := write_of_leads (Wire.encode t).toUTF8 leads leaf
  have keeps : tree.look.Keeps tree'.look := look ▸ Outlook.keeps_update leaf
  have saved : TokenStore.save s t = (.ok (), { s with tree := tree' }) := by
    change s.save t = _
    simp only [save, made, written]
  rw [saved]
  refine ⟨rfl, serves.edit leads leaf look nofun, ?_⟩
  exact read_eq_ok_iff.mpr ⟨place, leads.keeps keeps, by rw [look, Function.update_self]⟩

/-- A save goes as far as the file system lets it. -/
theorem save_cases (s : FileStore) (t : SessionToken) :
    (∃ tree e, s.tree.makeDirectories s.path.parent = (.error e, tree) ∧
      TokenStore.save s t = (.error (fault e), { s with tree })) ∨
    (∃ tree e, s.tree.makeDirectories s.path.parent = (.ok (), tree) ∧
      tree.write s.path (Wire.encode t).toUTF8 = .error e ∧
      TokenStore.save s t = (.error (fault e), { s with tree })) ∨
    ∃ tree tree', s.tree.makeDirectories s.path.parent = (.ok (), tree) ∧
      tree.write s.path (Wire.encode t).toUTF8 = .ok tree' ∧
      TokenStore.save s t = (.ok (), { s with tree := tree' }) := by
  have eq : TokenStore.save s t = s.save t := rfl
  rw [eq, save]
  rcases made : s.tree.makeDirectories s.path.parent with ⟨e | done, tree⟩
  · exact .inl ⟨tree, e, rfl, rfl⟩
  · cases written : tree.write s.path (Wire.encode t).toUTF8 with
    | error e => exact .inr (.inl ⟨tree, e, rfl, written, by simp only [written]⟩)
    | ok tree' => exact .inr (.inr ⟨tree, tree', rfl, written, by simp only [written]⟩)

theorem holds_of_save {s' : FileStore} {t : SessionToken} (saved : TokenStore.save s t = (.ok (), s')) :
    s'.Holds (some (Wire.encode t)) := by
  rcases s.save_cases t with ⟨_, _, -, eq⟩ | ⟨_, _, -, -, eq⟩ | ⟨tree, tree', -, written, eq⟩ <;>
    cases eq.symm.trans saved
  obtain ⟨place, leads, leaf, look⟩ := write_eq_ok written
  have keeps : tree.look.Keeps tree'.look := look ▸ Outlook.keeps_update leaf
  exact read_eq_ok_iff.mpr ⟨place, leads.keeps keeps, by rw [look, Function.update_self]⟩

/-- A file without a text is as good as none, but it is left where it is. -/
theorem load_of_bytes (held : s.tree.read s.path = .ok bytes)
    (none : String.fromUTF8? bytes = none) : TokenStore.load s = ({}, s) := by
  change s.load = _
  simp only [load, held, none]

theorem load_of_notFound (missing : s.tree.find s.path = .error .notFound) :
    TokenStore.load s = ({}, s) := by
  change s.load = _
  simp only [load, read_of_notFound missing]

variable {text : String}

theorem load_of_record {t : SessionToken} (held : s.Holds (some text))
    (read : SessionToken.ofRecord? text = some t) : TokenStore.load s = (t, s) := by
  have bytes : s.tree.read s.path = .ok text.toUTF8 := held
  change s.load = _
  simp only [load, bytes, fromUTF8?_toUTF8, read]

theorem load_of_noRecord (held : s.Holds (some text)) (read : SessionToken.ofRecord? text = none) :
    TokenStore.load s = ({}, (TokenStore.clear s).2) := by
  have bytes : s.tree.read s.path = .ok text.toUTF8 := held
  change s.load = ({}, s.clear.2)
  simp only [load, bytes, fromUTF8?_toUTF8, read]

end FileStore

end WalletSession
