import WalletSession.Proofs.Store.Twins

/-! What becomes of a record that cannot be read. A text that is no record is removed when it is
loaded, from either store; a file that holds no text at all is passed over and stays where it is. -/
namespace WalletSession

namespace FileStore

variable {s : FileStore} {bytes : ByteArray}

theorem eq_ok_of_toOption {ε α : Type} {r : Except ε α} {a : α} (given : r.toOption = some a) :
    r = .ok a := by
  cases r with
  | error e => cases given
  | ok b =>
    cases given
    rfl

/-- The record's file is gone, and it is all that changed. -/
structure Removed (s s' : FileStore) : Prop where
  path : s'.path = s.path
  gone : s'.Holds none
  rest : ∃ place, s.tree.look.Leads s.path place ∧
    s'.tree.look = Function.update s.tree.look place none

theorem removed_clear (held : s.tree.read s.path = .ok bytes) :
    s.Removed (TokenStore.clear s).2 := by
  obtain ⟨tree, place, cleared, leads, -, look, gone⟩ := clear_of_file held
  rw [cleared]
  exact ⟨rfl, gone, place, leads, look⟩

end FileStore

open FileStore Text.Utf8

/-- A text that is a record is loaded and left as it is, and any other text is removed. Only bytes
that are no text at all are left behind. -/
theorem corrupt_texts_are_removed (raw : String) :
    (∀ t : SessionToken, Wire.decode? raw = some t →
      TokenStore.load (MemoryStore.mk (some raw)) = (t.normalized, ⟨some raw⟩) ∧
      ∀ s : FileStore, s.tree.read s.path = .ok raw.toUTF8 →
        TokenStore.load s = (t.normalized, s)) ∧
    ((Wire.decode? raw : Option SessionToken) = none →
      TokenStore.load (MemoryStore.mk (some raw)) = ({}, ⟨none⟩) ∧
      ∀ s : FileStore, s.tree.read s.path = .ok raw.toUTF8 →
        (TokenStore.load s).1 = {} ∧ s.Removed (TokenStore.load s).2) ∧
    ∀ (s : FileStore) (bytes : ByteArray), s.tree.read s.path = .ok bytes →
      String.fromUTF8? bytes = none → TokenStore.load s = ({}, s) := by
  refine ⟨fun t decoded => ?_, fun failed => ?_, fun s bytes held noText => load_of_bytes held noText⟩
  · have read : SessionToken.ofRecord? raw = some t.normalized := by
      rw [SessionToken.ofRecord?, decoded, Option.map_some]
    exact ⟨MemoryStore.load_of_record read, fun s held => load_of_record held read⟩
  · have read : SessionToken.ofRecord? raw = none := by
      rw [SessionToken.ofRecord?, failed, Option.map_none]
    refine ⟨MemoryStore.load_of_noRecord read, fun s held => ?_⟩
    rw [load_of_noRecord held read]
    exact ⟨rfl, removed_clear held⟩

/-- A text that breaks off is removed from its file. -/
theorem broken_text_is_removed :
    let s : FileStore := ⟨⟨[("auth_token.json", .file "\x7bnot json".toUTF8)]⟩, ⟨"auth_token.json"⟩⟩
    s.tree.read s.path = .ok "\x7bnot json".toUTF8 ∧
      (TokenStore.load s).1 = {} ∧ (TokenStore.load s).2.Holds none := by
  intro s
  have held : s.tree.read s.path = .ok "\x7bnot json".toUTF8 :=
    eq_ok_of_toOption (by decide +kernel)
  obtain ⟨-, removed, -⟩ := corrupt_texts_are_removed "\x7bnot json"
  obtain ⟨loaded, gone⟩ := (removed (by decide +kernel)).2 s held
  exact ⟨held, loaded, gone.gone⟩

/-- Bytes that are no text are no record, but their file stays. -/
theorem not_always_removed : ¬∀ (s : FileStore) (bytes : ByteArray),
    s.tree.read s.path = .ok bytes →
    (∀ raw : String, bytes = raw.toUTF8 → (Wire.decode? raw : Option SessionToken) = none) →
    (TokenStore.load s).2.Holds none := by
  intro removed
  let s : FileStore := ⟨⟨[("auth_token.json", .file ⟨#[0xff, 0x7b, 0x7d]⟩)]⟩, ⟨"auth_token.json"⟩⟩
  have held : s.tree.read s.path = .ok ⟨#[0xff, 0x7b, 0x7d]⟩ :=
    eq_ok_of_toOption (by decide +kernel)
  have noText : String.fromUTF8? ⟨#[0xff, 0x7b, 0x7d]⟩ = none := by decide +kernel
  have gone := removed s _ held fun raw eq => by
    rw [eq, fromUTF8?_toUTF8] at noText
    contradiction
  rw [load_of_bytes held noText] at gone
  have missing := FileTree.read_of_notFound gone
  rw [held] at missing
  contradiction

end WalletSession
