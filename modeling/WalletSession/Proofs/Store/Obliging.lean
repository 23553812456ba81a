import WalletSession.Store.Memory

/-! A store that from now on takes every record and can always be cleared. Nothing is said of how it
behaved before. -/
namespace WalletSession

variable {σ : Type} [TokenStore σ]

inductive StoreWrite
  | save (token : SessionToken)
  | clear

def StoreWrite.run (s : σ) : StoreWrite → Except AuthError Unit × σ
  | .save token => TokenStore.save s token
  | .clear => TokenStore.clear s

/-- Whatever was written before it, the next write succeeds. -/
def Obliging (s : σ) : Prop :=
  ∀ (earlier : List StoreWrite) (write : StoreWrite),
    (write.run (earlier.foldl (fun s write => (write.run s).2) s)).1 = .ok ()

namespace Obliging

variable {s : σ}

theorem run (obliging : Obliging s) (write : StoreWrite) : (write.run s).1 = .ok () :=
  obliging [] write

theorem after (obliging : Obliging s) (write : StoreWrite) : Obliging (write.run s).2 :=
  fun earlier next => obliging (write :: earlier) next

theorem clears (obliging : Obliging s) : (TokenStore.clear s).1 = .ok () := obliging.run .clear

theorem saves (obliging : Obliging s) (token : SessionToken) :
    (TokenStore.save s token).1 = .ok () := obliging.run (.save token)

theorem cleared (obliging : Obliging s) : Obliging (TokenStore.clear s).2 := obliging.after .clear

theorem saved (obliging : Obliging s) (token : SessionToken) :
    Obliging (TokenStore.save s token).2 := obliging.after (.save token)

/-- A store obliges if every write succeeds as long as something holds that every write keeps. -/
theorem of_invariant {p : σ → Prop}
    (kept : ∀ s (write : StoreWrite), p s → (write.run s).1 = .ok () ∧ p (write.run s).2)
    (holds : p s) : Obliging s := by
  intro earlier write
  induction earlier generalizing s with
  | nil => exact (kept s write holds).1
  | cons first rest ih => exact ih (kept s first holds).2

theorem memory (s : MemoryStore) : Obliging s := by
  intro earlier write
  cases write <;> rfl

end Obliging

end WalletSession
