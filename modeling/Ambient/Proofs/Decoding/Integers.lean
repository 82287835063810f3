import Ambient.Proofs.Decoding.Fields
import Ambient.Proofs.Decoding.Literals
import Ambient.Proofs.Decoding.Numerals
import Ambient.Proofs.Decoding.Shapes
import Ambient.Proofs.Numbering
import Ambient.Proofs.Validation
import Mathlib

/-!
Integers of manifests. A numeral that a signed word holds is loaded as its integer, which both
dialects write as it was; a larger one is refused or becomes a float, however exact.
-/
namespace Ambient

/-! Members behind an integer. -/

namespace Enum

theorem Count.initializers_after_int {c : Count} {ms : List EnumMember} {j : Nat} {k m : EnumMember}
    {n : Int64} (hj : ms[j]? = some k) (hj' : ms[j + 1]? = some m) (hk : k.value = some (.int n))
    (d : Dialect) : (c.initializers d ms)[j + 1]? = some (initializer ⟨successor n, true⟩ d m) := by
  induction ms generalizing c j with
  | nil => simp at hj
  | cons a ms ih =>
    cases j with
    | succ j => exact ih (by simpa using hj) (by simpa using hj')
    | zero =>
      obtain rfl : a = k := by simpa using hj
      have hafter : c.after a = ⟨successor n, true⟩ := by simp only [after, hk]
      cases ms with
      | nil => simp at hj'
      | cons b ms =>
        obtain rfl : b = m := by simpa using hj'
        rw [initializers, List.getElem?_cons_succ, initializers, List.getElem?_cons_zero, hafter]

/-- A reader counts on from what is written before. -/
theorem readNumbers_succ {next : Option Int} {inits : List (Option String)} {j : Nat} {s : String}
    (hj : inits[j]? = some (some s)) (hj' : inits[j + 1]? = some none) :
    (readNumbers next inits)[j + 1]? = some ((integerOf? s.toList).map (· + 1)) := by
  induction inits generalizing next j with
  | nil => simp at hj
  | cons init inits ih =>
    cases j with
    | succ j => exact ih (by simpa using hj) (by simpa using hj')
    | zero =>
      obtain rfl : init = some s := by simpa using hj
      cases inits with
      | nil => simp at hj'
      | cons init inits =>
        obtain rfl : init = none := by simpa using hj'
        rfl

/-- Behind an integer both dialects go on with the next one, as far as words go in Lua. -/
theorem counts_on (e : Enum) {j : Nat} {k m : EnumMember} {n : Int64} (hj : e.members[j]? = some k)
    (hj' : e.members[j + 1]? = some m) (hk : k.value = some (.int n)) (hm : m.value = none) :
    (e.initializers .lua)[j + 1]? =
        some (some (toString (min (n.toInt + 1) Int64.maxValue.toInt))) ∧
      (readNumbers (some 0) (e.initializers .typeScript))[j + 1]? = some (some (n.toInt + 1)) := by
  have hnext := fun d => Count.initializers_after_int (c := .start) hj hj' hk d
  constructor
  · rw [initializers, hnext]
    simp only [Count.initializer, hm, successor_toInt]
  · have hint : (e.initializers .typeScript)[j]? = some (some (toString n.toInt)) :=
      Count.initializers_some .typeScript hj hk
    have hnone : (e.initializers .typeScript)[j + 1]? = some none := by
      rw [initializers, hnext]
      simp only [Count.initializer, hm, ↓reduceIte]
    rw [readNumbers_succ hint hnone, integerOf?_toString, Option.map_some]

end Enum

namespace Manifest

/-- A numeral for the integer stands there. -/
def WrittenNumeral (format : Format) (node? : Option Node) (w : List Char) (i : Int) : Prop :=
  Numeral format w i ∧ ∃ n, node? = some n ∧ Stands format w n

/-- What a numeral for the integer is loaded as. -/
structure LoadedInteger (format : Format) (i : Int) (v : Option Value) : Prop where
  /-- The integer itself, and its literal denotes it. -/
  kept : isSignedWord i = true → ∃ n : Int64, v = some (.int n) ∧ n.toInt = i ∧
    ∀ d, integerOf? ((Value.int n).literal d).toList = some i
  /-- The nearest float. -/
  rounded : isSignedWord i = false → isWordInteger i = true → v = some (.float (Binary64.ofInt i))
  wide : isWordInteger i = false → format = .json ∧ ∃ x, v = some (.float x)

/-- A value that stands there is loaded as its numeral says. -/
def KeepsNumerals (format : Format) (node? : Option Node) (v : Option Value) : Prop :=
  ∀ w i, WrittenNumeral format node? w i → LoadedInteger format i v

theorem isWordInteger_of_isSignedWord {i : Int} (h : isSignedWord i = true) :
    isWordInteger i = true := by
  obtain ⟨hlo, hhi⟩ := isSignedWord_iff.mp h
  exact isWordInteger_iff.mpr ⟨hlo, by omega⟩

theorem toInt_ofInt {i : Int} (h : isSignedWord i = true) : (Int64.ofInt i).toInt = i := by
  obtain ⟨hlo, hhi⟩ := isSignedWord_iff.mp h
  exact Int64.toInt_ofInt_of_le (by omega) (by omega)

theorem Decides.keepsNumerals {format : Format} {node? : Option Node} {v : Option Value}
    (hd : Decides readSome node? none v) : KeepsNumerals format node? v := by
  rintro w i ⟨hnumeral, n, rfl, hstands⟩
  obtain ⟨m, hm, hnode⟩ := hnumeral.stands
  obtain rfl := hstands.unique hm
  obtain ⟨x, hx, rfl⟩ := map_eq_ok_iff.mp hd
  obtain ⟨hp, hv⟩ := readValue_eq_ok_iff.mp hx
  have hword : isWordInteger i = true → x = integerValue i := by
    intro h
    rw [hnode.word h, value?] at hv
    exact (Option.some.inj hv).symm
  refine ⟨fun h => ?_, fun hs h => ?_, fun h => ?_⟩
  · rw [hword (isWordInteger_of_isSignedWord h), integerValue, if_pos h]
    refine ⟨_, rfl, toInt_ofInt h, fun d => ?_⟩
    rw [Value.literal, integerOf?_toString, toInt_ofInt h]
  · rw [hword h, integerValue, if_neg (by simp [hs])]
  · rcases hnode.wide h with hproblem | ⟨hformat, y, rfl⟩
    · exact absurd hp hproblem
    · rw [value?] at hv
      exact ⟨hformat, y, hv.symm⟩

/-- The values of members are loaded as their numerals say, and the members behind them count on. -/
structure KeepsCount (format : Format) (n : Node) (e : Enum) : Prop where
  members : List.Forall₂ (fun m k => KeepsNumerals format (memberSchema.fieldNode? "value" m) k.value)
    ((enumSchema format).itemNodes "members" n) e.members
  next : ∀ j m k w i, ((enumSchema format).itemNodes "members" n)[j]? = some m →
    e.members[j + 1]? = some k → k.value = none →
      WrittenNumeral format (memberSchema.fieldNode? "value" m) w i → isSignedWord i = true →
        (e.initializers .lua)[j + 1]? =
            some (some (toString (min (i + 1) Int64.maxValue.toInt))) ∧
          (Enum.readNumbers (some 0) (e.initializers .typeScript))[j + 1]? = some (some (i + 1))

theorem keepsCount {format : Format} {n : Node} {e : Enum}
    (hr : (enumSchema format).read format n = .ok e) : KeepsCount format n e := by
  have hmembers : List.Forall₂
      (fun m k => KeepsNumerals format (memberSchema.fieldNode? "value" m) k.value)
      ((enumSchema format).itemNodes "members" n) e.members :=
    (members_read hr).imp fun m k hm => (member_value hm).keepsNumerals
  refine ⟨hmembers, fun j m next w i hj hj' hnext hw hs => ?_⟩
  obtain ⟨hlt, rfl⟩ := List.getElem?_eq_some_iff.mp hj
  have hlt' : j < e.members.length := hmembers.length_eq ▸ hlt
  obtain ⟨n, hvalue, hn, -⟩ := (hmembers.get hlt hlt' w i hw).kept hs
  rw [← hn]
  exact e.counts_on (List.getElem?_eq_getElem hlt') hj' hvalue hnext

/--
Integers of a manifest that is loaded. A numeral is read as one node wherever it stands. Written as
the value of a variable, the default of a parameter or the value of a member, it is loaded as its
integer if a signed word holds it, and members behind it count on; one that only an unsigned word
holds becomes the nearest float, and one past that a float in JSON.
-/
theorem numerals_loaded {format : Format} {source filename : String} {f : File} {root : Node}
    (hn : (document format source).root = root) (hl : load format source filename = .ok f) :
    (∀ w i, Numeral format w i → ∃ n, Stands format w n) ∧
    List.Forall₂ (fun n (x : Variable) =>
        KeepsNumerals format (variableSchema.fieldNode? "value" n) x.value)
      (declarationNodes format "variables" root) (f.vars ++ f.namespaces.flatMap Namespace.vars) ∧
    List.Forall₂ (fun n (g : Function) => List.Forall₂ (fun m (p : Parameter) =>
          KeepsNumerals format (parameterSchema.fieldNode? "default" m) p.default)
        ((functionSchema format).itemNodes "params" n) g.params)
      (declarationNodes format "functions" root)
      (f.functions ++ f.namespaces.flatMap Namespace.functions) ∧
    List.Forall₂ (KeepsCount format) (declarationNodes format "enums" root)
      (f.enums ++ f.namespaces.flatMap Namespace.enums) := by
  obtain ⟨hd, -⟩ := (File.load_eq_ok_iff ..).mp hl
  obtain ⟨-, hr⟩ := decode_eq_ok_iff.mp hd
  rw [hn] at hr
  refine ⟨fun w i h => ?_, ?_, ?_, ?_⟩
  · obtain ⟨n, hn, -⟩ := h.stands
    exact ⟨n, hn⟩
  · exact (variables_read hr).imp fun n x hx => (variable_value hx).keepsNumerals
  · exact (functions_read hr).imp fun n g hg =>
      (parameters_read hg).imp fun m p hp => (parameter_default hp).keepsNumerals
  · exact (enums_read hr).imp fun n e he => keepsCount he

theorem Numeral.stands_word {format : Format} {w : List Char} {i : Int} (h : Numeral format w i)
    (hi : isWordInteger i = true) : Stands format w (.integer i) := by
  obtain ⟨n, hn, hnode⟩ := h.stands
  rwa [hnode.word hi] at hn

/-! A member with a hexadecimal value before one without. -/

namespace Counted

def toml : String := "[[enums]]\nname = \"E\"\n" ++
  "members = [\x7b name = \"a\", value = 0x1_f \x7d, \x7b name = \"b\" \x7d]\n"

def name (s : String) : Entry := .mk (.named "name") (.text s)

def first : Node := .table [name "a", .mk (.named "value") (.integer 31)] none

def second : Node := .table [name "b"] none

def enumNode : Node :=
  .table [.mk (.named "members") (.sequence [first, second] none), name "E"] none

def root : Node := .table [.mk (.named "enums") (.sequence [enumNode] none)] none

def enum : Enum where
  name := "E"
  members := [{ name := "a", value := some (.int 31) }, { name := "b" }]

def file : File := { enums := [enum] }

theorem document_toml : document .toml toml = ⟨root, false⟩ := by cbv

theorem load_toml : load .toml toml "decl.toml" = .ok file := by
  rw [File.load_eq_ok_iff, decode_eq_ok_iff, document_toml]
  exact ⟨⟨rfl, by cbv⟩, by decide +kernel⟩

theorem written : WrittenNumeral .toml (memberSchema.fieldNode? "value" first) "0x1_f".toList 31 := by
  have hm : ('x', 16) ∈ bases := by decide
  have h : Numeral .toml "0x1_f".toList 31 :=
    .based hm (.gap (by decide) (.single (by decide)))
  exact ⟨h, .integer 31, by cbv, h.stands_word (by decide)⟩

theorem numerals_loaded_counted :
    (document .toml toml).root = root ∧ load .toml toml "decl.toml" = .ok file ∧
      LoadedInteger .toml 31 (some (.int 31)) ∧
      (enum.initializers .lua)[1]? = some (some "32") := by
  have hn : (document .toml toml).root = root := by rw [document_toml]
  have h := (numerals_loaded hn load_toml).2.2.2
  have hnodes : declarationNodes .toml "enums" root = [enumNode] := by cbv
  have hitems : (enumSchema .toml).itemNodes "members" enumNode = [first, second] := by cbv
  rw [hnodes] at h
  have hcount : KeepsCount .toml enumNode enum := (List.forall₂_cons.mp h).1
  have hmembers := hcount.members
  rw [hitems] at hmembers
  have hfirst := (List.forall₂_cons.mp hmembers).1 _ _ written
  have hnext := (hcount.next 0 first { name := "b" } _ _ (by rw [hitems]; rfl) rfl rfl written
    (by decide)).1
  exact ⟨hn, load_toml, hfirst, hnext⟩

end Counted

/-! A value past the signed words. -/

namespace Rounded

def toml : String := "[[variables]]\nname = \"X\"\nvalue = 9223372036854775809\n"

def file : File where
  vars := [{ name := "X", value := some (.float (Binary64.ofInt 9223372036854775809)) }]

/-- The value is loaded as a float, whose literal is no integer. -/
theorem rounded_numeral : Numeral .toml "9223372036854775809".toList 9223372036854775809 ∧
    load .toml toml "decl.toml" = .ok file ∧
    (Value.float (Binary64.ofInt 9223372036854775809)).literal .lua = "9.223372036854776e18" := by
  have hdigits : "9223372036854775809".toList.all fun c => decide (IsDigit 10 c) := by decide
  have hgrouped : Grouped 10 "9223372036854775809".toList "9223372036854775809".toList :=
    grouped_self (by decide) fun c hc => of_decide_eq_true (List.all_eq_true.mp hdigits c hc)
  have hvalue : numberOf 10 "9223372036854775809".toList = 9223372036854775809 := by
    decide +kernel
  refine ⟨?_, by decide +kernel, by decide +kernel⟩
  have h := Numeral.decimal hgrouped nofun
  rwa [hvalue] at h

end Rounded

end Manifest
end Ambient
