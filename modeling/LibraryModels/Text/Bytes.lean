/-!
# The bytes of a text

Texts are ordered by their UTF-8 bytes, as unsigned numbers. A text is determined by its bytes, so
the order has no ties between different texts.
-/

namespace LibraryModels.Text

/-- The UTF-8 encoding of a text. -/
def bytes (s : String) : List UInt8 :=
  s.toByteArray.data.toList

theorem bytes_inj
    {s t : String} :
    bytes s = bytes t ↔ s = t := by
  constructor
  · intro h
    have hb : s.toByteArray = t.toByteArray := by
      have := congrArg List.toArray h
      simp only [bytes, Array.toArray_toList] at this
      exact ByteArray.ext this
    cases s
    cases t
    cases hb
    rfl
  · rintro rfl
    rfl

end LibraryModels.Text
