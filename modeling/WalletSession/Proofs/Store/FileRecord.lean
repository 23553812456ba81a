import WalletSession.Proofs.Store.Files
import WalletSession.Proofs.Store.Lawful
import WalletSession.Proofs.Store.Obliging

/-! The store in a file is lawful, whatever the file system refuses. Directories that were made before a
failure lead to no record, and where a record stands none are missing. -/
namespace WalletSession

namespace FileTree

variable {t t' : FileTree} {p : FilePath} {bytes : ByteArray} {e : FileFault}

theorem read_of_removeFile (removed : t.removeFile p = .ok t') : ∃ bytes, t.read p = .ok bytes := by
  rw [removeFile_eq] at removed
  rcases located : t.locate p with e | c | ⟨c, name⟩
  · simp [located, Except.bind] at removed
  · simp [located, Except.bind] at removed
  · rcases held : c.here.lookup name with _ | bytes | inner
    · simp [located, held, Except.bind] at removed
    · cases plain : p.endsInSlash with
      | true => simp [located, held, plain, Except.bind] at removed
      | false =>
        have found : t.find p = .ok (.file bytes) := by simp [find_eq, located, held, plain, Except.bind]
        exact ⟨bytes, by rw [read, found]; rfl⟩
    · simp [located, held, Except.bind] at removed

/-- Directories that could not be made are not there afterwards, or nothing was tried. -/
theorem makeDirectories_refused (refused : t.makeDirectories p = (.error e, t')) :
    t' = t ∨ ∀ place, t'.look.walk p.steps ≠ .ok place := by
  rcases t.makeDirectories_cases p with ⟨e', eq⟩ | ⟨-, -, eq⟩ <;> rw [eq] at refused
  · exact .inl (congrArg Prod.snd refused).symm
  · refine .inr fun place walked => ?_
    have way : (t.makeSteps p.steps.reverse).2.look.walk p.steps.reverse.reverse = .ok place := by
      rwa [refused, List.reverse_reverse]
    have made := (t.makeSteps_ok_iff p.steps.reverse).mpr ⟨place, way⟩
    simp [refused] at made

/-- Above a file no directory is missing. -/
theorem makeDirectories_of_read {r : Except FileFault Unit} (held : t.read p = .ok bytes)
    (made : t.makeDirectories p.parent = (r, t')) : t' = t := by
  obtain ⟨place, leads, -⟩ := read_eq_ok_iff.mp held
  obtain ⟨above, way⟩ := leads.parent
  rcases t.makeDirectories_cases p.parent with ⟨e, eq⟩ | ⟨clean, short, -⟩
  · exact (congrArg Prod.snd (eq.symm.trans made)).symm
  · exact (congrArg Prod.snd ((makeDirectories_of_walk clean short way).symm.trans made)).symm

end FileTree

namespace FileStore

open FileTree Text.Utf8

variable {s s' : FileStore} {t : SessionToken} {bytes : ByteArray} {e : AuthError} {raw : Option String}

/-- The text in the record's file. -/
def text? (s : FileStore) : Option String :=
  (s.tree.read s.path).toOption.bind String.fromUTF8?

theorem text?_of_read (held : s.tree.read s.path = .ok bytes) : s.text? = String.fromUTF8? bytes := by
  rw [text?, held]
  rfl

theorem Holds.text? (held : s.Holds raw) : s.text? = raw := by
  cases raw with
  | none => rw [FileStore.text?, read_of_notFound held]; rfl
  | some raw => rw [text?_of_read held, fromUTF8?_toUTF8]

theorem text?_congr (same : ∀ bytes, s'.tree.read s'.path = .ok bytes ↔ s.tree.read s.path = .ok bytes) :
    s'.text? = s.text? := by
  cases held : s.tree.read s.path with
  | ok bytes => rw [text?_of_read held, text?_of_read ((same bytes).mpr held)]
  | error e =>
    cases held' : s'.tree.read s'.path with
    | ok bytes => exact absurd ((same bytes).mp held') (by simp [held])
    | error e' => rw [text?, text?, held, held']; rfl

/-- What a save leaves behind that was refused. -/
theorem save_refused (refused : (TokenStore.save s t).1 = .error e) :
    ∃ tree, (TokenStore.save s t).2 = { s with tree } ∧
      ∀ bytes, tree.read s.path = .ok bytes ↔ s.tree.read s.path = .ok bytes := by
  -- where a record stood nothing had to be made
  have kept {r : Except FileFault Unit} {tree : FileTree}
      (made : s.tree.makeDirectories s.path.parent = (r, tree)) (bytes : ByteArray)
      (held : s.tree.read s.path = .ok bytes) : tree.read s.path = .ok bytes := by
    rw [makeDirectories_of_read held made]
    exact held
  rcases s.save_cases t with
    ⟨tree, e', made, eq⟩ | ⟨tree, e', made, written, eq⟩ | ⟨tree, tree', -, -, eq⟩
  · refine ⟨tree, by rw [eq], fun bytes => ⟨fun held => ?_, kept made bytes⟩⟩
    obtain ⟨place, leads, -⟩ := read_eq_ok_iff.mp held
    obtain ⟨above, way⟩ := leads.parent
    rcases makeDirectories_refused made with rfl | missing
    · exact held
    · exact absurd way (missing above)
  · refine ⟨tree, by rw [eq], fun bytes => ⟨fun held => ?_, kept made bytes⟩⟩
    obtain ⟨place, leads, stands⟩ := read_eq_ok_iff.mp held
    obtain ⟨tree', written', -⟩ := write_of_leads (Wire.encode t).toUTF8 leads (by simp [stands])
    exact absurd (written.symm.trans written') nofun
  · simp [eq] at refused

theorem clear_cases (s : FileStore) :
    (∃ tree bytes, s.tree.read s.path = .ok bytes ∧ tree.find s.path = .error .notFound ∧
      TokenStore.clear s = (.ok (), { s with tree })) ∨
    (∀ bytes, s.tree.read s.path ≠ .ok bytes) ∧ (TokenStore.clear s).2 = s := by
  cases held : s.tree.read s.path with
  | ok bytes =>
    obtain ⟨tree, place, cleared, -, -, -, gone⟩ := clear_of_file held
    exact .inl ⟨tree, bytes, rfl, gone, cleared⟩
  | error e =>
    refine .inr ⟨fun bytes => nofun, ?_⟩
    change s.clear.2 = s
    unfold clear
    cases removed : s.tree.removeFile s.path with
    | ok tree =>
      obtain ⟨bytes, held'⟩ := read_of_removeFile removed
      rw [held] at held'
      contradiction
    | error e' => cases e' <;> rfl

theorem text?_clear (s : FileStore) : (TokenStore.clear s).2.text? = none := by
  rcases s.clear_cases with ⟨tree, bytes, -, gone, eq⟩ | ⟨unread, same⟩
  · rw [eq]
    have empty : FileStore.Holds { s with tree } none := gone
    exact empty.text?
  · rw [same]
    cases held : s.tree.read s.path with
    | ok bytes => exact absurd held (unread bytes)
    | error e => rw [text?, held]; rfl

theorem clear_refused (refused : (TokenStore.clear s).1 = .error e) : (TokenStore.clear s).2 = s := by
  rcases s.clear_cases with ⟨tree, bytes, -, -, eq⟩ | ⟨-, same⟩
  · rw [eq] at refused
    contradiction
  · exact same

/-- A file that is loaded is the record, or it is no record and is removed if it is a text. -/
theorem load_cases (s : FileStore) :
    TokenStore.load s = ((s.text?.bind SessionToken.ofRecord?).getD {}, s) ∨
      s.text?.bind SessionToken.ofRecord? = none ∧
        TokenStore.load s = ({}, (TokenStore.clear s).2) := by
  cases held : s.tree.read s.path with
  | error e =>
    refine .inl ?_
    change s.load = _
    simp [load, text?, held, Except.toOption]
  | ok bytes =>
    rw [text?_of_read held]
    cases decoded : String.fromUTF8? bytes with
    | none => exact .inl (load_of_bytes held decoded)
    | some text =>
      cases read : SessionToken.ofRecord? text with
      | none =>
        refine .inr ⟨read, ?_⟩
        change s.load = ({}, s.clear.2)
        simp only [load, held, decoded, read]
      | some t =>
        refine .inl ?_
        change s.load = _
        simp [load, held, decoded, read]

instance : LawfulStore FileStore where
  record := text?
  loads s := by
    rcases s.load_cases with loaded | ⟨none, loaded⟩
    · rw [loaded]
    · rw [loaded, none]
      rfl
  saves saved := (holds_of_save (by rw [← saved])).text?
  refusesSave {s t e} refused := by
    obtain ⟨tree, eq, same⟩ := save_refused refused
    rw [eq]
    exact text?_congr same
  clears {s} _ := s.text?_clear
  refusesClear refused := congrArg text? (clear_refused refused)

instance : SteadyStore FileStore where
  rereads s := by
    change (TokenStore.load s).2.text?.bind _ = s.text?.bind _
    rcases s.load_cases with loaded | ⟨none, loaded⟩
    · rw [loaded]
    · rw [loaded, none, text?_clear]
      rfl

/-- A store that the file system serves takes every record and can always be cleared. -/
theorem Serves.obliging (serves : s.Serves) (held : s.Holds raw) : Obliging s := by
  have kept (s : FileStore) (write : StoreWrite) (fit : s.Serves ∧ ∃ raw, s.Holds raw) :
      (write.run s).1 = .ok () ∧ (write.run s).2.Serves ∧ ∃ raw, (write.run s).2.Holds raw := by
    obtain ⟨serves, raw, held⟩ := fit
    cases write <;> simp only [StoreWrite.run]
    case save t => exact (serves.saved t).imp_right (.imp_right (Exists.intro _))
    case clear => exact (serves.cleared held).imp_right (.imp_right (Exists.intro _))
  exact Obliging.of_invariant kept ⟨serves, raw, held⟩

end FileStore

end WalletSession
