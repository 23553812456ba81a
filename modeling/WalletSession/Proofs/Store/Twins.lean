import WalletSession.Proofs.Store.Files
import WalletSession.Store.Memory

/-! Whoever works with a store cannot tell whether it keeps its record in memory or in a file: as long
as the file system serves it, every call has the same answer and leaves the same text. -/
namespace WalletSession

inductive StoreCall
  | load
  | save (token : SessionToken)
  | clear

inductive StoreAnswer
  | loaded (token : SessionToken)
  | done
  | refused (e : AuthError)
  deriving DecidableEq

def StoreAnswer.ofResult : Except AuthError Unit → StoreAnswer
  | .ok () => .done
  | .error e => .refused e

namespace StoreCall

variable {σ : Type} [TokenStore σ]

def run (s : σ) : StoreCall → StoreAnswer × σ
  | .load => (.loaded (TokenStore.load s).1, (TokenStore.load s).2)
  | .save token => (.ofResult (TokenStore.save s token).1, (TokenStore.save s token).2)
  | .clear => (.ofResult (TokenStore.clear s).1, (TokenStore.clear s).2)

/-- The answers to calls, in their order, and what the store is after them. -/
def runAll (s : σ) : List StoreCall → List StoreAnswer × σ
  | [] => ([], s)
  | call :: rest =>
    let (answer, next) := call.run s
    let (answers, last) := runAll next rest
    (answer :: answers, last)

end StoreCall

namespace MemoryStore

variable {text : String}

theorem load_of_record {t : SessionToken} (read : SessionToken.ofRecord? text = some t) :
    TokenStore.load (MemoryStore.mk (some text)) = (t, ⟨some text⟩) := by
  change MemoryStore.load _ = _
  simp only [load, read]

theorem load_of_noRecord (read : SessionToken.ofRecord? text = none) :
    TokenStore.load (MemoryStore.mk (some text)) = ({}, ⟨none⟩) := by
  change MemoryStore.load _ = _
  simp only [load, read]

end MemoryStore

namespace FileStore

variable {s : FileStore} {raw : Option String}

theorem Serves.loaded (serves : s.Serves) (held : s.Holds raw) :
    (TokenStore.load s).1 = (TokenStore.load (MemoryStore.mk raw)).1 ∧
      (TokenStore.load s).2.Serves ∧
      (TokenStore.load s).2.Holds (TokenStore.load (MemoryStore.mk raw)).2.raw := by
  cases raw with
  | none =>
    rw [load_of_notFound held]
    exact ⟨rfl, serves, held⟩
  | some text =>
    cases read : SessionToken.ofRecord? text with
    | none =>
      rw [load_of_noRecord held read, MemoryStore.load_of_noRecord read]
      exact ⟨rfl, (serves.cleared held).2⟩
    | some t =>
      rw [load_of_record held read, MemoryStore.load_of_record read]
      exact ⟨rfl, serves, held⟩

/-- One call on both stores. -/
theorem Serves.agrees (serves : s.Serves) (held : s.Holds raw) (call : StoreCall) :
    (call.run s).1 = (call.run (MemoryStore.mk raw)).1 ∧ (call.run s).2.Serves ∧
      (call.run s).2.Holds (call.run (MemoryStore.mk raw)).2.raw := by
  cases call <;> simp only [StoreCall.run]
  case load => exact (serves.loaded held).imp_left (congrArg StoreAnswer.loaded)
  case save token => exact (serves.saved token).imp_left (congrArg StoreAnswer.ofResult)
  case clear => exact (serves.cleared held).imp_left (congrArg StoreAnswer.ofResult)

/-- All calls have the same answers, and the same text is held after any number of them. -/
theorem memory_and_file_agree (serves : s.Serves) (held : s.Holds raw) (calls : List StoreCall) :
    (StoreCall.runAll s calls).1 = (StoreCall.runAll (MemoryStore.mk raw) calls).1 ∧
      (StoreCall.runAll s calls).2.Holds (StoreCall.runAll (MemoryStore.mk raw) calls).2.raw := by
  induction calls generalizing s raw with
  | nil => exact ⟨rfl, held⟩
  | cons call rest ih =>
    obtain ⟨same, serves, held⟩ := serves.agrees held call
    obtain ⟨others, after⟩ := ih serves held
    exact ⟨congrArg₂ List.cons same others, after⟩

/-- Two directories are missing when the first record is saved. -/
theorem agree_in_missing_directory :
    let s := inDirectory {} ⟨"nested/state"⟩
    let token : SessionToken := { token := some "t", account := some "a", verified := true }
    s.Serves ∧ s.Holds none ∧
      (StoreCall.runAll s [.load, .save token, .load, .clear, .load]).1 =
        [.loaded {}, .done, .loaded token, .done, .loaded {}] := by
  have serves : (inDirectory {} ⟨"nested/state"⟩).Serves := by decide +kernel
  have held : (inDirectory {} ⟨"nested/state"⟩).Holds none := by
    change FileTree.find _ _ = _
    with_unfolding_all rfl
  refine ⟨serves, held, ?_⟩
  rw [(memory_and_file_agree serves held _).1]
  decide +kernel

end FileStore

end WalletSession
