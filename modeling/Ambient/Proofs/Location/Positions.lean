import Ambient.Proofs.Location.Selection

/-!
Lines and columns. A place in a text, counted in bytes, is told by the line breaks before it and by what
stands behind the last of them, and is found again from these two numbers.
-/
namespace Ambient

namespace Text

/-! Lines with their breaks. -/

theorem piecesWithBreak_line {l : List Char} (h : '\n' ∉ l) (s : List Char) :
    piecesWithBreak (l ++ '\n' :: s) = (l ++ ['\n']) :: piecesWithBreak s := by
  induction l with
  | nil => rfl
  | cons c l ih =>
    rw [List.mem_cons, not_or] at h
    have hc : ¬ c = '\n' := fun he => h.1 he.symm
    rw [List.cons_append, piecesWithBreak, if_neg hc, ih h.2]
    rfl

/-! Bytes. -/

/-- The byte of a line feed. No byte of another character is equal to it. -/
def breakByte : UInt8 := 0x0A

def bytes (s : List Char) : List UInt8 := s.flatMap String.utf8EncodeChar

theorem breakByte_mem_utf8EncodeChar (c : Char) :
    breakByte ∈ String.utf8EncodeChar c ↔ c = '\n' := by
  have hbyte : ∀ n : Nat, breakByte = UInt8.ofNat n ↔ n % 256 = 10 := by
    intro n
    rw [← UInt8.toNat_inj, UInt8.toNat_ofNat']
    exact eq_comm
  have hc : c = '\n' ↔ c.val.toNat = 10 := by
    rw [Char.ext_iff, ← UInt32.toNat_inj]
    rfl
  unfold String.utf8EncodeChar
  simp only [hc]
  split
  · rw [List.mem_singleton, hbyte]
    omega
  · split
    · simp only [List.mem_cons, List.not_mem_nil, or_false, hbyte]
      omega
    · split
      · simp only [List.mem_cons, List.not_mem_nil, or_false, hbyte]
        omega
      · simp only [List.mem_cons, List.not_mem_nil, or_false, hbyte]
        omega

theorem length_bytes (s : List Char) : (bytes s).length = byteSize s := by
  induction s with
  | nil => rfl
  | cons c s ih =>
    rw [bytes, List.flatMap_cons, List.length_append, String.length_utf8EncodeChar]
    exact congrArg (c.utf8Size + ·) ih

theorem breakByte_not_mem_bytes {l : List Char} (h : '\n' ∉ l) : breakByte ∉ bytes l := by
  intro hb
  obtain ⟨c, hc, hm⟩ := List.mem_flatMap.mp hb
  exact h ((breakByte_mem_utf8EncodeChar c).mp hm ▸ hc)

theorem bytes_line (l s : List Char) : bytes (l ++ '\n' :: s) = bytes l ++ breakByte :: bytes s := by
  rw [bytes, List.flatMap_append, List.flatMap_cons]
  rfl

/-- The bytes behind the last line break, or all of them. -/
def lastRow (bs : List UInt8) : List UInt8 := (bs.reverse.takeWhile (· ≠ breakByte)).reverse

theorem lastRow_of_not_mem {bs : List UInt8} (h : breakByte ∉ bs) : lastRow bs = bs := by
  have hall : ∀ b ∈ bs.reverse, decide (b ≠ breakByte) = true := by
    intro b hb
    rw [decide_eq_true_eq]
    rintro rfl
    exact h (List.mem_reverse.mp hb)
  rw [lastRow, List.takeWhile_eq_self_iff.mpr hall, List.reverse_reverse]

theorem lastRow_append_break (bs cs : List UInt8) : lastRow (bs ++ breakByte :: cs) = lastRow cs := by
  have hstop : (breakByte :: bs.reverse).takeWhile (· ≠ breakByte) = [] := by simp
  rw [lastRow, List.reverse_append, List.reverse_cons, List.append_assoc, List.singleton_append,
    List.takeWhile_append, hstop, List.append_nil]
  split
  · next h => rw [lastRow, (List.takeWhile_prefix _).eq_of_length h]
  · rfl

/-! Places. -/

/-- The place behind these bytes of a text, as the line breaks in them and what follows the last one tell. -/
def placeBehind (s : List Char) (bs : List UInt8) : Nat :=
  byteSize ((piecesWithBreak s).take (bs.count breakByte)).flatten + (lastRow bs).length

theorem placeBehind_of_not_mem {bs : List UInt8} (h : breakByte ∉ bs) (s : List Char) :
    placeBehind s bs = bs.length := by
  rw [placeBehind, List.count_eq_zero_of_not_mem h, lastRow_of_not_mem h]
  exact Nat.zero_add bs.length

/-- Behind the first line of a text places are told by the rest of it. -/
theorem placeBehind_line {l : List Char} (h : '\n' ∉ l) (s : List Char) (bs : List UInt8) :
    placeBehind (l ++ '\n' :: s) (bytes l ++ breakByte :: bs) = byteSize l + 1 + placeBehind s bs := by
  have hcount : (bytes l ++ breakByte :: bs).count breakByte = bs.count breakByte + 1 := by
    rw [List.count_append, List.count_eq_zero_of_not_mem (breakByte_not_mem_bytes h),
      List.count_cons_self, Nat.zero_add]
  have hsize : byteSize (l ++ ['\n']) = byteSize l + 1 := byteSize_append l ['\n']
  rw [placeBehind, hcount, lastRow_append_break, piecesWithBreak_line h, List.take_succ_cons,
    List.flatten_cons, byteSize_append, hsize, Nat.add_assoc]
  rfl

theorem placeBehind_take (s : List Char) {o : Nat} (h : o ≤ byteSize s) :
    placeBehind s ((bytes s).take o) = o := by
  -- The induction takes off the first line, unless the place is in it.
  induction hn : s.length using Nat.strong_induction_on generalizing s o with
  | h n ih =>
    by_cases hs : breakByte ∈ (bytes s).take o
    · have hbreak : '\n' ∈ s := by
        by_contra hs'
        exact breakByte_not_mem_bytes hs' (List.mem_of_mem_take hs)
      obtain ⟨l, cs, rfl, hl⟩ := List.eq_append_cons_of_mem hbreak
      have hle : byteSize l < o := by
        by_contra hle
        rw [bytes_line, List.take_append_of_le_length (by rw [length_bytes]; omega)] at hs
        exact breakByte_not_mem_bytes hl (List.mem_of_mem_take hs)
      obtain ⟨k, rfl⟩ := Nat.exists_eq_add_of_lt hle
      have htake : (bytes (l ++ '\n' :: cs)).take (byteSize l + k + 1) =
          bytes l ++ breakByte :: (bytes cs).take k := by
        rw [bytes_line, ← length_bytes, Nat.add_assoc, List.take_length_add_append,
          List.take_succ_cons]
      have hk : k ≤ byteSize cs := by
        rw [byteSize_append, byteSize] at h
        have hsize : '\n'.utf8Size = 1 := rfl
        omega
      have hlt : cs.length < n := by
        rw [← hn, List.length_append, List.length_cons]
        omega
      rw [htake, placeBehind_line hl, ih cs.length hlt cs hk rfl]
      omega
    · rw [placeBehind_of_not_mem hs, List.length_take, length_bytes, Nat.min_eq_left h]

end Text

namespace Source
open Text

/-- The bytes of a text before a place. -/
def bytesBefore (source : String) (o : Nat) : List UInt8 := source.toByteArray.data.toList.take o

/-- The line that a place is in: one more than there are line breaks before it. -/
def lineAt (source : String) (o : Nat) : Nat := 1 + (bytesBefore source o).count breakByte

/-- The column of a place: one more than there are bytes between it and the line break before it. -/
def columnAt (source : String) (o : Nat) : Nat := 1 + (lastRow (bytesBefore source o)).length

theorem bytesBefore_eq (source : String) (o : Nat) :
    bytesBefore source o = (bytes source.toList).take o := by
  have hb : source.toByteArray = (bytes source.toList).toByteArray := String.utf8Encode_toList.symm
  rw [bytesBefore, hb, List.toList_data_toByteArray]

theorem offsetAt_of_pos {line : Nat} (h : 0 < line) (source : String) (column : Nat) :
    ∃ o, offsetAt source line column = some o ∧ o ≤ source.utf8ByteSize := by
  refine ⟨_, if_neg (Nat.ne_of_gt h), ?_⟩
  exact Nat.min_le_right _ _

/--
Every place in a text is found again from its line and its column, and no line and column lead out of the
text: a place past the end of the text is its end. The column zero is the first one, and only the line
zero has no place.
-/
theorem offsetAt_lineAt_columnAt (source : String) :
    (∀ o ≤ source.utf8ByteSize,
      offsetAt source (lineAt source o) (columnAt source o) = some o) ∧
    (∀ line, offsetAt source line 0 = offsetAt source line 1) ∧
    (∀ line column, 0 < line →
      ∃ o, offsetAt source line column = some o ∧ o ≤ source.utf8ByteSize) ∧
    ∀ column, offsetAt source 0 column = none := by
  refine ⟨fun o ho => ?_, fun line => rfl, fun line column h => offsetAt_of_pos h source column,
    fun column => rfl⟩
  have hplace := placeBehind_take source.toList (o := o) (by rwa [byteSize_toList])
  rw [← bytesBefore_eq] at hplace
  have hline : ¬ lineAt source o = 0 := by
    unfold lineAt
    omega
  rw [offsetAt, if_neg hline, lineAt, columnAt, Nat.add_sub_cancel_left, Nat.add_sub_cancel_left]
  change some (min (placeBehind source.toList (bytesBefore source o)) source.utf8ByteSize) = some o
  rw [hplace, Nat.min_eq_left ho]

/-! A place within a character of three bytes, behind both kinds of line ends and an empty line. -/

def mixed : String := "é\r\n\n√x"

theorem offsetAt_lineAt_columnAt_mixed :
    7 ≤ mixed.utf8ByteSize ∧ lineAt mixed 7 = 3 ∧ columnAt mixed 7 = 3 ∧
      offsetAt mixed 3 3 = some 7 ∧
      0 < 5 ∧ ∃ o, offsetAt mixed 5 9 = some o ∧ o ≤ mixed.utf8ByteSize := by
  have hsize : 7 ≤ mixed.utf8ByteSize := by decide
  obtain ⟨hplace, -, hbound, -⟩ := offsetAt_lineAt_columnAt mixed
  have hline : lineAt mixed 7 = 3 := by decide +kernel
  have hcolumn : columnAt mixed 7 = 3 := by decide +kernel
  have hoffset := hplace 7 hsize
  rw [hline, hcolumn] at hoffset
  exact ⟨hsize, hline, hcolumn, hoffset, by decide, hbound 5 9 (by decide)⟩

end Source
end Ambient
