import WalletSession.Proofs.Token
import WalletSession.Store.Faulty
import WalletSession.Store.Memory

/-! What a session relies on in a store: it holds at most one text, a record that was saved is held
as its encoding, and a save or a removal that fails changes nothing that is held. -/
namespace WalletSession

class LawfulStore (σ : Type) [TokenStore σ] where
  /-- The text that is held. -/
  record : σ → Option String
  loads (s : σ) :
    (TokenStore.load s).1 = ((record s).bind SessionToken.ofRecord?).getD {}
  saves {s : σ} {t : SessionToken} (saved : (TokenStore.save s t).1 = .ok ()) :
    record (TokenStore.save s t).2 = some (Wire.encode t)
  refusesSave {s : σ} {t : SessionToken} {e : AuthError}
    (refused : (TokenStore.save s t).1 = .error e) : record (TokenStore.save s t).2 = record s
  clears {s : σ} (cleared : (TokenStore.clear s).1 = .ok ()) : record (TokenStore.clear s).2 = none
  refusesClear {s : σ} {e : AuthError} (refused : (TokenStore.clear s).1 = .error e) :
    record (TokenStore.clear s).2 = record s

namespace LawfulStore

variable {σ : Type} [TokenStore σ] [LawfulStore σ]

theorem isBacked_load (s : σ) : (TokenStore.load s).1.IsBacked := by
  rw [loads]
  cases held : (record s).bind SessionToken.ofRecord? with
  | none => exact SessionToken.isBacked_empty
  | some t =>
    obtain ⟨_, _, read⟩ := Option.bind_eq_some_iff.mp held
    exact SessionToken.isBacked_ofRecord? read

end LawfulStore

/-- Loading drops at most what is no record anyway. -/
class SteadyStore (σ : Type) [TokenStore σ] [LawfulStore σ] : Prop where
  rereads (s : σ) :
    (LawfulStore.record (TokenStore.load s).2).bind SessionToken.ofRecord? =
      (LawfulStore.record s).bind SessionToken.ofRecord?

instance : LawfulStore MemoryStore where
  record := MemoryStore.raw
  loads s := by
    obtain ⟨_ | raw⟩ := s
    · rfl
    · change (MemoryStore.load ⟨some raw⟩).1 = (SessionToken.ofRecord? raw).getD {}
      simp only [MemoryStore.load]
      cases SessionToken.ofRecord? raw <;> rfl
  saves _ := rfl
  refusesSave := nofun
  clears _ := rfl
  refusesClear := nofun

instance : SteadyStore MemoryStore where
  rereads s := by
    obtain ⟨_ | raw⟩ := s
    · rfl
    · change (MemoryStore.load ⟨some raw⟩).2.raw.bind _ = SessionToken.ofRecord? raw
      unfold MemoryStore.load
      cases read : SessionToken.ofRecord? raw with
      | none => simp [read]
      | some t => simp [read]

namespace FaultyStore

variable {σ : Type} [TokenStore σ] (s : FaultyStore σ)

/-- A fault touches nothing, and without one the store behind answers. -/
theorem save_cases (t : SessionToken) :
    (∃ e later, TokenStore.save s t = (.error e, later) ∧ later.inner = s.inner) ∨
      ∃ later, TokenStore.save s t = ((TokenStore.save s.inner t).1, later) ∧
        later.inner = (TokenStore.save s.inner t).2 := by
  change (∃ e later, save s t = _ ∧ _) ∨ ∃ later, save s t = _ ∧ _
  unfold save
  split
  next e _ => exact .inl ⟨e, _, rfl, rfl⟩
  next => exact .inr ⟨_, rfl, rfl⟩

theorem clear_cases :
    (∃ e later, TokenStore.clear s = (.error e, later) ∧ later.inner = s.inner) ∨
      ∃ later, TokenStore.clear s = ((TokenStore.clear s.inner).1, later) ∧
        later.inner = (TokenStore.clear s.inner).2 := by
  change (∃ e later, clear s = _ ∧ _) ∨ ∃ later, clear s = _ ∧ _
  unfold clear
  split
  next e _ => exact .inl ⟨e, _, rfl, rfl⟩
  next => exact .inr ⟨_, rfl, rfl⟩

instance [LawfulStore σ] : LawfulStore (FaultyStore σ) where
  record s := LawfulStore.record s.inner
  loads s := LawfulStore.loads s.inner
  saves {s t} saved := by
    rcases save_cases s t with ⟨e, later, answer, same⟩ | ⟨later, answer, same⟩ <;>
      simp only [answer, same] at saved ⊢
    · contradiction
    · exact LawfulStore.saves saved
  refusesSave {s t e} refused := by
    rcases save_cases s t with ⟨e, later, answer, same⟩ | ⟨later, answer, same⟩ <;>
      simp only [answer, same] at refused ⊢
    exact LawfulStore.refusesSave refused
  clears {s} cleared := by
    rcases clear_cases s with ⟨e, later, answer, same⟩ | ⟨later, answer, same⟩ <;>
      simp only [answer, same] at cleared ⊢
    · contradiction
    · exact LawfulStore.clears cleared
  refusesClear {s e} refused := by
    rcases clear_cases s with ⟨e, later, answer, same⟩ | ⟨later, answer, same⟩ <;>
      simp only [answer, same] at refused ⊢
    exact LawfulStore.refusesClear refused

instance [LawfulStore σ] [SteadyStore σ] : SteadyStore (FaultyStore σ) where
  rereads s := SteadyStore.rereads s.inner

end FaultyStore

end WalletSession
