import Ambient.Proofs.Numbering
import Ambient.Proofs.StringLiterals
import Ambient.Proofs.Validation
import Mathlib.Data.List.Forall2
import Mathlib.Data.List.Nodup

/-!
The keys of enumeration members. A reader of the dialect finds the member's name in each of them, so
two members with different names have different keys, and where a key ends is told by the key.
-/
namespace Ambient

/-! Reading keys. -/

/-- Characters of a word; TypeScript has one more of them. -/
def isWordPart (d : Dialect) (c : Char) : Bool :=
  c.isAlpha || c.isDigit || c = '_' || d = .typeScript && c = '$'

/-- The longest word that the text begins with, and the text behind it. No word begins with a digit. -/
def word? (d : Dialect) (cs : List Char) : Option (String × List Char) :=
  match cs.takeWhile (isWordPart d) with
  | [] => none
  | c :: word =>
    if c.isDigit then none else some (String.ofList (c :: word), cs.dropWhile (isWordPart d))

/-- The words of Lua that are no names. -/
def luaReserved : List String :=
  ["and", "break", "do", "else", "elseif", "end", "false", "for", "function", "goto", "if",
    "in", "local", "nil", "not", "or", "repeat", "return", "then", "true", "until", "while"]

/-- A key of a table in Lua: a name, or a string in brackets. Its bytes are to be UTF-8. -/
def luaKey? : List Char → Option (String × List Char)
  | '[' :: '"' :: cs =>
    match Literal.luaBody? cs with
    | some (bytes, ']' :: rest) => (String.fromUTF8? bytes.toByteArray).map fun s => (s, rest)
    | _ => none
  | cs => (word? .lua cs).filter fun p => p.1 ∉ luaReserved

/-- A key of an enumeration in TypeScript: a word, or a string as JSON has it. -/
def typeScriptKey? : List Char → Option (String × List Char)
  | '"' :: cs => (Manifest.Json.stringFrom cs).toOption
  | cs => word? .typeScript cs

/-- The name that a key denotes, and the text behind the key. -/
def key? : Dialect → List Char → Option (String × List Char)
  | .lua => luaKey?
  | .typeScript => typeScriptKey?

/-! A key is read back. -/

/-- What follows a key is no part of a word. -/
def Ends (d : Dialect) (rest : List Char) : Prop := ∀ c ∈ rest.head?, isWordPart d c = false

section

variable {d : Dialect} {rest : List Char}

theorem word?_append {c : Char} {word : List Char} (hc : c.isDigit = false)
    (hw : ∀ x ∈ c :: word, isWordPart d x = true) (he : Ends d rest) :
    word? d (c :: word ++ rest) = some (String.ofList (c :: word), rest) := by
  have ht : rest.takeWhile (isWordPart d) = [] ∧ rest.dropWhile (isWordPart d) = rest := by
    cases rest with
    | nil => exact ⟨rfl, rfl⟩
    | cons x rest =>
      have hx := he x rfl
      exact ⟨List.takeWhile_cons_of_neg (by simp [hx]), List.dropWhile_cons_of_neg (by simp [hx])⟩
  rw [word?, List.takeWhile_append_of_pos hw, List.dropWhile_append_of_pos hw, ht.1, ht.2,
    List.append_nil]
  simp [hc]

theorem not_isDigit_of_start {c : Char} (h : Enum.isIdentifierStart c = true) :
    c.isDigit = false := by
  have hdigits : ∀ n < 58, 48 ≤ n → Enum.isIdentifierStart (Char.ofNat n) = false := by decide
  refine Bool.eq_false_iff.mpr fun hd => ?_
  simp only [Char.isDigit, Bool.and_eq_true, decide_eq_true_eq] at hd
  have hc := hdigits c.toNat (Nat.lt_succ_of_le hd.2) hd.1
  rw [Char.ofNat_toNat, h] at hc
  cases hc

theorem isWordPart_of_isIdentifier {cs : List Char} (h : Enum.isIdentifier cs = true) :
    ∀ c ∈ cs, isWordPart d c = true := by
  cases cs with
  | nil => cases h
  | cons c cs =>
    rw [Enum.isIdentifier, Bool.and_eq_true, List.all_eq_true] at h
    refine List.forall_mem_cons.mpr ⟨?_, fun x hx => ?_⟩
    · rcases Bool.or_eq_true_iff.mp h.1 with hc | hc <;> simp [isWordPart, hc]
    · have hx := h.2 x hx
      simp only [Enum.isIdentifierPart, Char.isAlphanum] at hx
      simp [isWordPart, hx]

/-- An identifier is a word in both dialects. -/
theorem word?_identifier {name : String} (h : Enum.isIdentifier name.toList = true)
    (he : Ends d rest) : word? d (name.toList ++ rest) = some (name, rest) := by
  have hw := @isWordPart_of_isIdentifier d name.toList h
  cases hn : name.toList with
  | nil => simp [hn, Enum.isIdentifier] at h
  | cons c cs =>
    rw [hn] at h hw
    have hc : c.isDigit = false := not_isDigit_of_start (Bool.and_eq_true_iff.mp h).1
    rw [word?_append hc hw he, ← hn, String.ofList_toList]

theorem fromUTF8?_flatMap (s : String) :
    String.fromUTF8? (s.toList.flatMap String.utf8EncodeChar).toByteArray = some s := by
  have hs : (s.toList.flatMap String.utf8EncodeChar).toByteArray = s.toByteArray :=
    String.utf8Encode_toList
  rw [hs]
  exact dif_pos s.isValidUTF8

theorem luaReserved_subset : ∀ w ∈ luaReserved, w ∈ Enum.luaKeywords := by decide

theorem word?_cons_of_not {c : Char} (h : isWordPart d c = false) (cs : List Char) :
    word? d (c :: cs) = none := by
  rw [word?, List.takeWhile_cons_of_neg (by simp [h])]

theorem luaKey?_word {cs : List Char} {name : String} (h : word? .lua cs = some (name, rest))
    (hr : name ∉ luaReserved) : luaKey? cs = some (name, rest) := by
  unfold luaKey?
  split
  next cs => rw [word?_cons_of_not rfl] at h; cases h
  next => simp [h, Option.filter, hr]

theorem typeScriptKey?_word {cs : List Char} {name : String}
    (h : word? .typeScript cs = some (name, rest)) : typeScriptKey? cs = some (name, rest) := by
  unfold typeScriptKey?
  split
  next cs => rw [word?_cons_of_not rfl] at h; cases h
  next => exact h

theorem luaKey?_bracketed (name : String) (rest : List Char) :
    luaKey? ('[' :: (Literal.quote .lua name.toList ++ ']' :: rest)) = some (name, rest) := by
  have hq : Literal.quote .lua name.toList ++ ']' :: rest =
      '"' :: (Literal.body .lua name.toList ++ '"' :: ']' :: rest) := by simp [Literal.quote]
  simp only [hq, luaKey?, Literal.luaBody?_body, fromUTF8?_flatMap, Option.map_some]

theorem typeScriptKey?_quoted (name : String) (rest : List Char) :
    typeScriptKey? (Literal.quote .typeScript name.toList ++ rest) = some (name, rest) := by
  have hq : Literal.quote .typeScript name.toList ++ rest =
      '"' :: (Literal.body .typeScript name.toList ++ '"' :: rest) := by simp [Literal.quote]
  rw [hq, typeScriptKey?, Literal.stringFrom_body, String.ofList_toList]
  rfl

/-- A reader finds the name in its key, and the end of the key where the text behind it begins. -/
theorem key?_key (name : String) (he : Ends d rest) :
    key? d ((Enum.key d name).toList ++ rest) = some (name, rest) := by
  cases d with
  | lua =>
    rw [key?, Enum.key]
    split
    next hb =>
      rw [Bool.and_eq_true, decide_eq_true_eq] at hb
      exact luaKey?_word (word?_identifier hb.1 he) fun hm => hb.2 (luaReserved_subset name hm)
    next =>
      rw [← luaKey?_bracketed name rest]
      simp [Literal.string]
  | typeScript =>
    rw [key?, Enum.key]
    split
    next hb => exact typeScriptKey?_word (word?_identifier hb he)
    next =>
      rw [← typeScriptKey?_quoted name rest, Literal.string, String.toList_ofList]

theorem le_of_isWordPart {c : Char} (h : isWordPart d c = true) : 0x20 ≤ c.toNat := by
  have hcontrol : ∀ n < 0x20, isWordPart d (Char.ofNat n) = false := by cases d <;> decide
  refine Nat.le_of_not_lt fun hlt => ?_
  have hc := hcontrol c.toNat hlt
  rw [Char.ofNat_toNat, h] at hc
  cases hc

/-- No control stands in a key, so it is on one line. -/
theorem le_of_mem_key {name : String} {c : Char} (h : c ∈ (Enum.key d name).toList) :
    0x20 ≤ c.toNat := by
  have hword : Enum.isIdentifier name.toList = true → c ∈ name.toList → 0x20 ≤ c.toNat :=
    fun hi hc => le_of_isWordPart (isWordPart_of_isIdentifier (d := d) hi c hc)
  have hquote : c ∈ Literal.quote d name.toList → 0x20 ≤ c.toNat := by
    intro hc
    simpa [Literal.isControl] using Literal.not_isControl_of_mem_quote hc
  cases d with
  | lua =>
    rw [Enum.key] at h
    split at h
    next hb => exact hword (Bool.and_eq_true_iff.mp hb).1 h
    next =>
      simp only [Literal.string, String.toList_append, String.toList_ofList, List.mem_append] at h
      rcases h with (h | h) | h
      · obtain rfl : c = '[' := by simpa using h
        decide
      · exact hquote h
      · obtain rfl : c = ']' := by simpa using h
        decide
  | typeScript =>
    rw [Enum.key] at h
    split at h
    next hb => exact hword hb h
    next =>
      rw [Literal.string, String.toList_ofList] at h
      exact hquote h

end

namespace Enum

/-! Keys of a rendering. -/

def keys (e : Enum) (d : Dialect) : List String := e.members.map fun m => key d m.name

/-- The line of each member, from its key on. -/
def memberLines (e : Enum) (d : Dialect) : List String :=
  (e.members.zip (e.initializers d)).map fun p => entryLine d p.1 p.2

theorem render_eq_layOut (e : Enum) (d : Dialect) (scope : Scope) :
    e.render d scope = e.layOut d scope (e.memberLines d) := e.render_eq_textWith d scope

theorem ends_assigned (d : Dialect) (init : Option String) : Ends d (assigned init ++ ",").toList := by
  have hc : isWordPart d ',' = false ∧ isWordPart d ' ' = false := by cases d <;> decide
  cases init with
  | none => simpa [Ends, assigned] using hc.1
  | some s => simpa [Ends, assigned] using hc.2

/-- Each member has an initializer, or the want of one, beside it. -/
theorem map_members (e : Enum) (d : Dialect) {α : Type} (f : EnumMember → α) :
    e.members.map f = (e.members.zip (e.initializers d)).map fun p => f p.1 := by
  have hlength : e.members.length ≤ (e.initializers d).length :=
    Nat.le_of_eq (Count.length_initializers _ d _).symm
  calc e.members.map f
      = ((e.members.zip (e.initializers d)).map Prod.fst).map f := by
        rw [List.map_fst_zip hlength]
    _ = (e.members.zip (e.initializers d)).map fun p => f p.1 := List.map_map

theorem toList_entryLine (d : Dialect) (m : EnumMember) (init : Option String) :
    (entryLine d m init).toList = (key d m.name).toList ++ (assigned init ++ ",").toList := by
  rw [entryLine, String.append_assoc, String.toList_append]

theorem key?_entryLine (d : Dialect) (m : EnumMember) (init : Option String) :
    key? d (entryLine d m init).toList = some (m.name, (assigned init ++ ",").toList) := by
  rw [toList_entryLine]
  exact key?_key m.name (ends_assigned d init)

/-- What a reader of the keys finds. -/
structure KeysReadBack (e : Enum) (d : Dialect) (scope : Scope) : Prop where
  /-- There is a line for each member, and the rendering has these lines. -/
  text : e.render d scope = e.layOut d scope (e.memberLines d)
  begins : List.Forall₂ (fun k l => k.toList <+: l.toList) (e.keys d) (e.memberLines d)
  lines : (e.memberLines d).map (fun l => (key? d l.toList).map Prod.fst) =
    e.members.map fun m => some m.name
  /-- Nothing of a key is left behind what is read. -/
  keys : (e.keys d).map (fun k => key? d k.toList) = e.members.map fun m => some (m.name, [])
  distinct : (e.keys d).Nodup
  oneLine : ∀ k ∈ e.keys d, ∀ c ∈ k.toList, 0x20 ≤ c.toNat

/--
The keys of a valid enumeration read back as the names of its members, in order, both by themselves and
at the beginning of the members' lines. No two of them are equal, and each is on one line.
-/
theorem keys_read_back (e : Enum) (h : e.validate = .ok ()) (d : Dialect) (scope : Scope) :
    e.KeysReadBack d scope := by
  have hkey : ∀ name : String, key? d (key d name).toList = some (name, []) := by
    intro name
    have hk := @key?_key d [] name nofun
    rwa [List.append_nil] at hk
  have hinj : Function.Injective (key d) := by
    intro a b hab
    have hk := hkey a
    rw [hab, hkey b] at hk
    exact (Prod.mk.inj (Option.some.inj hk)).1.symm
  have hnames : (e.members.map EnumMember.name).Nodup := by
    rw [e.validate_eq_firstOf, firstOf_eq_ok_iff, e.violations_eq_nil_iff] at h
    exact h.2.2
  refine ⟨e.render_eq_layOut d scope, ?_, ?_, ?_, ?_, ?_⟩
  · rw [keys, map_members e d, memberLines, List.forall₂_map_left_iff, List.forall₂_map_right_iff,
      List.forall₂_same]
    intro p _
    rw [toList_entryLine]
    exact List.prefix_append _ _
  · rw [map_members e d, memberLines, List.map_map]
    refine List.map_congr_left fun p _ => ?_
    rw [Function.comp_apply, key?_entryLine]
    rfl
  · rw [keys, List.map_map]
    exact List.map_congr_left fun m _ => hkey m.name
  · have hmap : e.keys d = (e.members.map EnumMember.name).map (key d) := by
      rw [keys, List.map_map]
      rfl
    rw [hmap]
    exact hnames.map hinj
  · exact List.forall_mem_map.mpr fun m _ c hc => le_of_mem_key hc

/-! Members whose names are a keyword, no identifiers, and none of ASCII. -/

def odd : Enum where
  name := "Odd"
  members := [{ name := "end" }, { name := "_x1" }, { name := "[\"a\"]", value := some (.raw "1\n+ 1") },
    { name := "1st\n" }, { name := "été\x7f", desc := some "three\nbytes" }, { name := "\x01" ++ "23" }]

theorem keys_read_back_odd :
    odd.validate = .ok () ∧ odd.KeysReadBack .lua .topLevel ∧ odd.KeysReadBack .typeScript .topLevel ∧
      odd.keys .lua = ["[\"end\"]", "_x1", "[\"[\\\"a\\\"]\"]", "[\"1st\\n\"]", "[\"été\\127\"]",
        "[\"\\00123\"]"] ∧
      odd.keys .typeScript = ["end", "_x1", "\"[\\\"a\\\"]\"", "\"1st\\n\"", "\"été\x7f\"",
        "\"\\u000123\""] := by
  have h : odd.validate = .ok () := by decide +kernel
  exact ⟨h, keys_read_back odd h .lua .topLevel, keys_read_back odd h .typeScript .topLevel,
    by decide +kernel, by decide +kernel⟩

end Enum
end Ambient
