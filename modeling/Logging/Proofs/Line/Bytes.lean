import Logging.Line.Format

/-!
# Newline bytes

* `newline_mem_bytes`: **the byte of the line feed stands for line feeds alone**, so that a text
  holds this byte just when it holds the character.
-/

namespace Logging.Line

/-- The byte of the line feed. -/
def newlineByte : UInt8 := 10

/-- A character of several bytes is written with bytes above those of ASCII. -/
theorem newline_mem_encodeChar {c : Char} : newlineByte ∈ String.utf8EncodeChar c ↔ c = '\n' := by
  have hbyte : ∀ {n : Nat}, newlineByte = UInt8.ofNat n → n % 256 = 10 := by
    intro n h
    have := congrArg UInt8.toNat h
    simpa [newlineByte] using this.symm
  constructor
  · intro h
    rw [String.utf8EncodeChar] at h
    split at h
    · -- a single byte is the code point
      rename_i hone
      have hn := hbyte (List.mem_singleton.1 h)
      have hc : c.toNat = 10 := by
        change c.val.toNat = 10
        omega
      rw [← Char.ofNat_toNat c, hc]
    split at h
    · simp only [List.mem_cons, List.not_mem_nil, or_false] at h
      rcases h with h | h
      all_goals
        have := hbyte h
        omega
    split at h
    · simp only [List.mem_cons, List.not_mem_nil, or_false] at h
      rcases h with h | h | h
      all_goals
        have := hbyte h
        omega
    · simp only [List.mem_cons, List.not_mem_nil, or_false] at h
      rcases h with h | h | h | h
      all_goals
        have := hbyte h
        omega
  · rintro rfl
    decide

/-- **The byte of the line feed stands for line feeds alone.** -/
theorem newline_mem_bytes {s : String} : newlineByte ∈ s.toUTF8.data ↔ '\n' ∈ s.toList := by
  have hbytes : s.toUTF8.data.toList = s.toList.flatMap String.utf8EncodeChar := by
    show s.toByteArray.data.toList = _
    rw [← String.utf8Encode_toList, List.utf8Encode, List.toList_data_toByteArray]
  rw [← Array.mem_toList_iff, hbytes, List.mem_flatMap]
  simp [newline_mem_encodeChar]

/-- A line feed behind a text is one more byte. -/
theorem bytes_newline (s : String) : (s ++ "\n").toUTF8 = s.toUTF8.push newlineByte := by
  show s.toByteArray ++ "\n".toByteArray = _
  apply ByteArray.ext
  rw [ByteArray.data_append, ByteArray.data_push]
  rfl

end Logging.Line
