import Ambient.Manifest.Json
import Ambient.Value

/-!
String literals read back: a reader of Lua and a reader of JSON both stop behind the closing quote of
a literal, whatever follows it, and find the string in it.
-/
namespace Ambient.Literal
open Manifest (Node Problem)

/-! Strings of Lua. They hold bytes: a character that stands for itself gives those of its UTF-8. -/

/-- The byte with a number of at most three leading digits. -/
def byteByNumber? (cs : List Char) : Option (UInt8 × List Char) :=
  let digits := (cs.take 3).takeWhile Char.isDigit
  let n := Binary64.digitsValue digits
  if digits.isEmpty || UInt8.size ≤ n then none
  else some (UInt8.ofNat n, cs.drop digits.length)

/-- The byte that an escape denotes, from behind the backslash. -/
def luaEscaped? : List Char → Option (UInt8 × List Char)
  | [] => none
  | c :: cs =>
    if c = '\\' then some (0x5C, cs)
    else if c = '"' then some (0x22, cs)
    else if c = 'n' then some (0x0A, cs)
    else if c = 'r' then some (0x0D, cs)
    else if c = 't' then some (0x09, cs)
    else byteByNumber? (c :: cs)

theorem length_byteByNumber? {cs rest : List Char} {b : UInt8}
    (h : byteByNumber? cs = some (b, rest)) : rest.length < cs.length := by
  unfold byteByNumber? at h
  simp only [Option.ite_none_left_eq_some, Bool.or_eq_true, List.isEmpty_iff, not_or,
    Option.some.injEq, Prod.mk.injEq] at h
  obtain ⟨⟨hne, -⟩, -, rfl⟩ := h
  have hp : 0 < ((cs.take 3).takeWhile Char.isDigit).length := List.length_pos_iff.mpr hne
  have hl : cs ≠ [] := by
    rintro rfl
    exact hne rfl
  have hc : 0 < cs.length := List.length_pos_iff.mpr hl
  rw [List.length_drop]
  omega

theorem length_luaEscaped? {cs rest : List Char} {b : UInt8}
    (h : luaEscaped? cs = some (b, rest)) : rest.length < cs.length := by
  cases cs with
  | nil => simp [luaEscaped?] at h
  | cons c cs =>
    have hn := @length_byteByNumber? (c :: cs) rest b
    simp only [List.length_cons] at hn ⊢
    grind [luaEscaped?]

def prepend (bytes : List UInt8) (r : Option (List UInt8 × List Char)) :
    Option (List UInt8 × List Char) :=
  r.map fun p => (bytes ++ p.1, p.2)

/-- The bytes up to the closing quote, from behind the opening one; no line may end before it. -/
def luaBody? : List Char → Option (List UInt8 × List Char)
  | [] => none
  | c :: cs =>
    if c = '"' then some ([], cs)
    else if c = '\\' then
      match _h : luaEscaped? cs with
      | some (b, rest) => prepend [b] (luaBody? rest)
      | none => none
    else if c = '\n' || c = '\r' then none
    else prepend (String.utf8EncodeChar c) (luaBody? cs)
termination_by cs => cs.length
decreasing_by
  · have hl := length_luaEscaped? ‹_›
    exact Nat.lt_succ_of_lt hl
  · exact Nat.lt_succ_self _

/-- A short string of Lua in double quotes, and the text behind it. -/
def luaString? : List Char → Option (ByteArray × List Char)
  | '"' :: cs => (luaBody? cs).map fun p => (p.1.toByteArray, p.2)
  | _ => none

/-! Lua reads back each character. -/

theorem luaBody?_escape {cs rest : List Char} {b : UInt8} (h : luaEscaped? cs = some (b, rest)) :
    luaBody? ('\\' :: cs) = prepend [b] (luaBody? rest) := by
  rw [luaBody?, if_neg (by decide), if_pos rfl]
  split
  next b' rest' h' =>
    rw [h, Option.some.injEq, Prod.mk.injEq] at h'
    rw [h'.1, h'.2]
  next h' => simp [h] at h'

theorem luaBody?_plain {c : Char} (hq : c ≠ '"') (hb : c ≠ '\\') (hn : c ≠ '\n') (hr : c ≠ '\r')
    (cs : List Char) :
    luaBody? (c :: cs) = prepend (String.utf8EncodeChar c) (luaBody? cs) := by
  rw [luaBody?, if_neg hq, if_neg hb, if_neg (by simp [hn, hr])]

theorem luaEscaped?_digit {c : Char} (h : c.isDigit = true) (cs : List Char) :
    luaEscaped? (c :: cs) = byteByNumber? (c :: cs) := by
  have hne : ∀ d : Char, d.isDigit = false → c ≠ d := by
    rintro d hd rfl
    rw [h] at hd
    cases hd
  simp only [luaEscaped?, hne '\\' rfl, hne '"' rfl, hne 'n' rfl, hne 'r' rfl, hne 't' rfl, ↓reduceIte]

theorem decimalDigits_three : ∀ n < 128,
    (decimalDigits 3 n).all Char.isDigit = true ∧ (decimalDigits 3 n).length = 3 ∧
      Binary64.digitsValue (decimalDigits 3 n) = n := by
  decide

/-- Three digits are a byte by number, and digits that follow them are not part of it. -/
theorem luaEscaped?_decimalDigits {n : Nat} (hn : n < 128) (cs : List Char) :
    luaEscaped? (decimalDigits 3 n ++ cs) = some (UInt8.ofNat n, cs) := by
  obtain ⟨hd, hl, hv⟩ := decimalDigits_three n hn
  have ht : ((decimalDigits 3 n ++ cs).take 3).takeWhile Char.isDigit = decimalDigits 3 n := by
    rw [List.take_left' hl]
    have ha : (decimalDigits 3 n ++ []).takeWhile Char.isDigit =
        decimalDigits 3 n ++ [].takeWhile Char.isDigit :=
      List.takeWhile_append_of_pos (List.all_eq_true.mp hd)
    rwa [List.takeWhile_nil, List.append_nil] at ha
  have hb : byteByNumber? (decimalDigits 3 n ++ cs) = some (UInt8.ofNat n, cs) := by
    have hs : ¬ UInt8.size ≤ n := Nat.not_le.mpr (Nat.lt_trans hn (by decide))
    have hne : (decimalDigits 3 n).isEmpty = false := by
      rw [List.isEmpty_eq_false_iff, ← List.length_pos_iff, hl]
      decide
    simp only [byteByNumber?, ht, hv, hne, List.drop_left, Bool.false_or, decide_eq_true_eq]
    exact if_neg hs
  have hc := List.all_eq_true.mp hd (Nat.digitChar (n / 10 / 10 % 10)) List.mem_cons_self
  exact (luaEscaped?_digit hc _).trans hb

/-- An escaped byte below 0x80 is a character. -/
theorem utf8EncodeChar_of_lt {c : Char} (h : c.toNat < 128) :
    String.utf8EncodeChar c = [UInt8.ofNat c.toNat] := by
  exact if_pos (Nat.le_of_lt_succ h)

theorem luaBody?_luaChar (c : Char) (cs : List Char) :
    luaBody? (luaChar c ++ cs) = prepend (String.utf8EncodeChar c) (luaBody? cs) := by
  by_cases h : c ∈ ['\\', '"', '\n', '\r', '\t']
  · simp only [List.mem_cons, List.not_mem_nil, or_false] at h
    rcases h with rfl | rfl | rfl | rfl | rfl <;> exact luaBody?_escape rfl
  · simp only [List.mem_cons, List.not_mem_nil, or_false, not_or] at h
    obtain ⟨hb, hq, hn, hr, ht⟩ := h
    simp only [luaChar, hb, hq, hn, hr, ht, ↓reduceIte]
    split
    next hc =>
      have hc : c.toNat < 128 := by
        simp only [isControl, Bool.or_eq_true, decide_eq_true_eq] at hc
        omega
      rw [utf8EncodeChar_of_lt hc]
      exact luaBody?_escape (luaEscaped?_decimalDigits hc cs)
    next => exact luaBody?_plain hq hb hn hr cs

theorem luaBody?_body (s rest : List Char) :
    luaBody? (body .lua s ++ '"' :: rest) = some (s.flatMap String.utf8EncodeChar, rest) := by
  induction s with
  | nil => rw [body, List.flatMap_nil, List.nil_append, luaBody?, if_pos rfl, List.flatMap_nil]
  | cons c s ih =>
    have hb : body .lua (c :: s) ++ '"' :: rest = luaChar c ++ (body .lua s ++ '"' :: rest) := by
      simp [body, escape]
    rw [hb, luaBody?_luaChar, ih, List.flatMap_cons]
    rfl

/-! JSON reads back each character. -/

section
open Manifest.Json

/-- What reading the rest of a string answers once a character of it has been read. -/
def prependChar (c : Char) (r : Except Problem (List Char × List Char)) :
    Except Problem (List Char × List Char) :=
  r.map fun p => (c :: p.1, p.2)

theorem stringBody_escape {cs rest : List Char} {x : Char} (h : escaped cs = .ok (x, rest))
    (fuel : Nat) :
    stringBody (fuel + 1) ('\\' :: cs) = prependChar x (stringBody fuel rest) := by
  rw [stringBody, if_neg (by decide), if_pos rfl, h]
  cases hr : stringBody fuel rest <;> simp [prependChar, hr, bind, Except.bind, Except.map, pure, Except.pure]

theorem stringBody_plain {c : Char} (hq : c ≠ '"') (hb : c ≠ '\\') (hc : ¬ c.toNat < 0x20)
    (fuel : Nat) (cs : List Char) :
    stringBody (fuel + 1) (c :: cs) = prependChar c (stringBody fuel cs) := by
  rw [stringBody, if_neg hq, if_neg hb, if_neg hc]
  cases hr : stringBody fuel cs <;> simp [prependChar, bind, Except.bind, Except.map, pure, Except.pure]

theorem hexadecimalDigits_four : ∀ n < 32,
    (hexadecimalDigits 4 n).length = 4 ∧ Text.byteSize (hexadecimalDigits 4 n) = 4 ∧
      hexNumber? (hexadecimalDigits 4 n) = some n := by
  decide

theorem unicodeEscape_hexadecimalDigits {c : Char} (hc : c.toNat < 32) (cs : List Char) :
    unicodeEscape (hexadecimalDigits 4 c.toNat ++ cs) = .ok (c, cs) := by
  obtain ⟨hl, hb, hn⟩ := hexadecimalDigits_four c.toNat hc
  have hf : fourDigits (hexadecimalDigits 4 c.toNat ++ cs) = .ok (c.toNat, cs) := by
    simp only [fourDigits, List.take_left' hl, List.drop_left' hl, hb, hn, Nat.lt_irrefl, ↓reduceIte]
  have hlow : isLowSurrogate c.toNat = false := by
    simp only [isLowSurrogate, Bool.and_eq_false_iff, decide_eq_false_iff_not]
    omega
  have hhigh : isHighSurrogate c.toNat = false := by
    simp only [isHighSurrogate, Bool.and_eq_false_iff, decide_eq_false_iff_not]
    omega
  simp [unicodeEscape, hf, hlow, hhigh, bind, Except.bind, Char.ofNat_toNat]

theorem stringBody_typeScriptChar (fuel : Nat) (c : Char) (cs : List Char) :
    stringBody (fuel + 1) (typeScriptChar c ++ cs) = prependChar c (stringBody fuel cs) := by
  by_cases h : c ∈ ['\\', '"', '\n', '\r', '\t', '\x08', '\x0c']
  · simp only [List.mem_cons, List.not_mem_nil, or_false] at h
    rcases h with rfl | rfl | rfl | rfl | rfl | rfl | rfl <;> exact stringBody_escape rfl fuel
  · simp only [List.mem_cons, List.not_mem_nil, or_false, not_or] at h
    obtain ⟨hb, hq, hn, hr, ht, h8, h12⟩ := h
    have h8 : c.toNat ≠ 0x08 := fun he => h8 (Char.toNat_inj.mp he)
    have h12 : c.toNat ≠ 0x0C := fun he => h12 (Char.toNat_inj.mp he)
    simp only [typeScriptChar, hb, hq, hn, hr, ht, h8, h12, isControl, decide_eq_true_eq, ↓reduceIte]
    split
    next hc =>
      have he : escaped ('u' :: (hexadecimalDigits 4 c.toNat ++ cs)) = .ok (c, cs) :=
        unicodeEscape_hexadecimalDigits hc cs
      exact stringBody_escape he fuel
    next hc => exact stringBody_plain hq hb hc fuel cs

theorem stringBody_body (s rest : List Char) {fuel : Nat} (h : s.length < fuel) :
    stringBody fuel (body .typeScript s ++ '"' :: rest) = .ok (s, rest) := by
  induction s generalizing fuel with
  | nil =>
    obtain ⟨k, rfl⟩ := Nat.exists_eq_add_of_lt h
    rfl
  | cons c s ih =>
    obtain ⟨k, rfl⟩ := Nat.exists_eq_add_of_lt h
    have hb : body .typeScript (c :: s) ++ '"' :: rest =
        typeScriptChar c ++ (body .typeScript s ++ '"' :: rest) := by
      simp [body, escape]
    have hs := @ih (s.length + 1 + k) (by omega)
    rw [hb, stringBody_typeScriptChar, List.length_cons, hs]
    rfl

theorem length_le_body (s : List Char) : s.length ≤ (body .typeScript s).length := by
  have he : ∀ c, 1 ≤ (typeScriptChar c).length := by
    intro c
    fun_cases typeScriptChar c <;> simp
  induction s with
  | nil => exact Nat.zero_le _
  | cons c s ih =>
    have hc := he c
    simp only [body, List.flatMap_cons, List.length_append, List.length_cons, escape] at ih ⊢
    omega

theorem stringFrom_body (s rest : List Char) :
    stringFrom (body .typeScript s ++ '"' :: rest) = .ok (String.ofList s, rest) := by
  have hl : s.length < (body .typeScript s ++ '"' :: rest).length + 1 := by
    have hs := length_le_body s
    rw [List.length_append]
    omega
  rw [stringFrom, stringBody_body s rest hl]
  rfl

/-- A literal of TypeScript is a JSON text, whatever follows it. -/
theorem value_quote (s rest : List Char) (fuel depth : Nat) :
    value (fuel + 1) depth (quote .typeScript s ++ rest) = (.text (String.ofList s), some rest) := by
  have hq : quote .typeScript s ++ rest = '"' :: (body .typeScript s ++ '"' :: rest) := by
    simp [quote]
  have hv : value (fuel + 1) depth ('"' :: (body .typeScript s ++ '"' :: rest)) =
      stringNode (body .typeScript s ++ '"' :: rest) := by
    have hs : skipSpace ('"' :: (body .typeScript s ++ '"' :: rest)) =
        '"' :: (body .typeScript s ++ '"' :: rest) := rfl
    rw [value, hs]
    rfl
  rw [hq, hv, stringNode, stringFrom_body]

end

/-! Literals stay on their line. -/

theorem not_isControl_of_any {s : List Char} (h : s.any isControl = false) :
    ∀ x ∈ s, isControl x = false := by
  simpa using h

theorem not_isControl_digits :
    (∀ n < 128, (decimalDigits 3 n).any isControl = false) ∧
      ∀ n < 32, (hexadecimalDigits 4 n).any isControl = false := by
  decide

theorem not_isControl_of_mem_luaChar (c : Char) : ∀ x ∈ luaChar c, isControl x = false := by
  have hd := not_isControl_digits.1 c.toNat
  fun_cases luaChar c with
  | case6 hb hq hn hr ht hc =>
    refine List.forall_mem_cons.mpr ⟨rfl, not_isControl_of_any (hd ?_)⟩
    simp only [isControl, Bool.or_eq_true, decide_eq_true_eq] at hc
    omega
  | case7 hb hq hn hr ht hc =>
    simp only [Bool.or_eq_true, not_or, Bool.not_eq_true] at hc
    exact List.forall_mem_singleton.mpr hc.1
  | _ => exact not_isControl_of_any rfl

theorem not_isControl_of_mem_typeScriptChar (c : Char) :
    ∀ x ∈ typeScriptChar c, isControl x = false := by
  have hd := not_isControl_digits.2 c.toNat
  fun_cases typeScriptChar c with
  | case8 hb hq hn hr ht h8 h12 hc =>
    refine List.forall_mem_cons.mpr
      ⟨rfl, List.forall_mem_cons.mpr ⟨rfl, not_isControl_of_any (hd ?_)⟩⟩
    simpa [isControl] using hc
  | case9 hb hq hn hr ht h8 h12 hc =>
    exact List.forall_mem_singleton.mpr (Bool.not_eq_true _ ▸ hc)
  | _ => exact not_isControl_of_any rfl

theorem not_isControl_of_mem_quote {d : Dialect} {s : List Char} {x : Char}
    (h : x ∈ quote d s) : isControl x = false := by
  simp only [quote, body, List.mem_append, List.mem_cons, List.not_mem_nil, or_false,
    List.mem_flatMap] at h
  rcases h with (rfl | ⟨c, -, hx⟩) | rfl
  · rfl
  · cases d with
    | lua => exact not_isControl_of_mem_luaChar c x hx
    | typeScript => exact not_isControl_of_mem_typeScriptChar c x hx
  · rfl

/--
A literal ends where it should and denotes its string: Lua reads the bytes of its UTF-8 from it, and
TypeScript, by the rules of JSON, the string itself. No control stands in it, so it is on one line.
-/
theorem string_reads_back (s : String) (rest : List Char) :
    luaString? (((Value.string s).literal .lua).toList ++ rest) = some (s.toUTF8, rest) ∧
    (∀ fuel depth, Manifest.Json.value (fuel + 1) depth
      (((Value.string s).literal .typeScript).toList ++ rest) = (.text s, some rest)) ∧
    ∀ d, ∀ c ∈ ((Value.string s).literal d).toList, 0x20 ≤ c.toNat := by
  have ht : ∀ d, ((Value.string s).literal d).toList = quote d s.toList := by
    intro d
    rw [Value.literal, string, String.toList_ofList]
  refine ⟨?_, fun fuel depth => ?_, fun d c hc => ?_⟩
  · have hq : quote .lua s.toList ++ rest = '"' :: (body .lua s.toList ++ '"' :: rest) := by
      simp [quote]
    have hu : s.toUTF8 = s.toList.utf8Encode := by
      rw [← String.toByteArray_ofList, String.ofList_toList, String.toUTF8]
    rw [ht, hq, luaString?, luaBody?_body, hu]
    rfl
  · rw [ht, value_quote, String.ofList_toList]
  · rw [ht] at hc
    simpa [isControl] using not_isControl_of_mem_quote hc

end Ambient.Literal
