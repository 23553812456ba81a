import WalletSession.Text.Utf8

/-! Bytes of a text are read as the text. The reader takes the bytes of a character one after the other,
and between two characters it has collected those before. -/
namespace WalletSession.Text.Utf8

variable {v left value low high b : Nat} {out : List Char}

/-- A text is read from its own bytes. -/
theorem fromUTF8?_toUTF8 (raw : String) : String.fromUTF8? raw.toUTF8 = some raw :=
  dif_pos raw.isValidUTF8

end WalletSession.Text.Utf8
