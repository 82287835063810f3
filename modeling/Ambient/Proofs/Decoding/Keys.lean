import Ambient.Proofs.Decoding.Literals
import Ambient.Proofs.Decoding.Shapes
import Ambient.Proofs.Validation
import Mathlib

/-!
The keys of manifests. A record is not read from a table with a key of no field, at any depth; a
table for a literal value is read whatever it holds beside its expression.
-/
namespace Ambient.Manifest

/-- The table has no other keys than those of its place. -/
def KnownKeys (shape : Shape) (n : Node) : Prop := ∀ key ∈ n.keys, key ∈ shape.keys

/-- A place for literal values, or inside one. -/
def Shape.isLoose : Shape → Bool
  | .literal | .inner => true
  | _ => false

/--
What reading a node of this shape makes sure of: all keys are known, but in a table for a literal
value only that one entry holds an expression and nothing has a problem.
-/
def Checked : Shape → Node → Prop
  | .inner, n => n.problem? = none
  | .literal, n => n.problem? = none ∧
      ∀ es closing, n = .table es closing → (es.filter Entry.isRaw).length = 1
  | shape, n => KnownKeys shape n

theorem Checked.knownKeys {shape : Shape} {n : Node} (h : Checked shape n)
    (hs : shape.isLoose = false) : KnownKeys shape n := by
  cases shape with
  | literal | inner => cases hs
  | _ => exact h

theorem Checked.problem? {shape : Shape} {n : Node} (h : Checked shape n)
    (hs : shape.isLoose = true) : n.problem? = none := by
  cases shape with
  | inner => exact h
  | literal => exact h.1
  | _ => cases hs

theorem inherited_problem? : Node.Inherited fun n => n.problem? = none where
  item h n hn := (problem?_sequence_eq_none_iff.mp h).1 n hn
  entry h _ _ hn := (problem?_table_eq_none_iff.mp h).1 _ hn

/-! Readers check what they read. -/

/-- What the reader takes is checked throughout. -/
def Checks {α : Type} (shape : Shape) (read : Format → Reader α) : Prop :=
  ∀ ⦃format : Format⦄ ⦃n : Node⦄ ⦃x : α⦄, read format n = .ok x → n.Throughout Tabular shape →
    n.Throughout Checked shape

theorem checks_text : Checks .scalar fun _ => readText := by
  intro _ n s h _
  obtain rfl := readText_eq_ok_iff.mp h
  exact List.forall_mem_nil _

theorem checks_flag : Checks .scalar fun _ => readFlag := by
  intro _ n b h _
  obtain rfl := readFlag_eq_ok_iff.mp h
  exact List.forall_mem_nil _

theorem checks_type : Checks .scalar fun _ => readType := by
  intro _ n t h _
  obtain ⟨s, rfl, -⟩ := readType_eq_ok_iff.mp h
  exact List.forall_mem_nil _

theorem checks_literal : Checks .literal fun _ => readValue := by
  intro _ n v h _
  obtain ⟨hp, hv⟩ := readValue_eq_ok_iff.mp h
  cases n with
  | sequence => cases hv
  | table es closing =>
    obtain ⟨s, hs, -⟩ := Option.map_eq_some_iff.mp hv
    rw [rawExpression?_eq_some_iff] at hs
    refine Node.throughout_table.mpr ⟨⟨hp, ?_⟩, fun key m hm => ?_⟩
    · rintro es closing ⟨rfl, rfl⟩
      rw [hs]
      rfl
    · by_cases hk : key = rawKey
      · have hmem : Entry.mk (.named key) m ∈ es.filter Entry.isRaw :=
          List.mem_filter.mpr ⟨hm, decide_eq_true hk⟩
        rw [hs, List.mem_singleton, Entry.mk.injEq] at hmem
        obtain ⟨-, rfl⟩ := hmem
        rw [Shape.under, if_pos hk]
        exact List.forall_mem_nil _
      · rw [Shape.under, if_neg hk]
        exact Node.throughout_of_everywhere Shape.everywhere_inner inherited_problem?
          (fun _ h => h) m (inherited_problem?.entry hp key m hm)
  | _ => exact ⟨hp, fun _ _ h => by cases h⟩

theorem mem_dialectNames_of_ok {name : String} {d : Dialect} (h : dialectOfName name = .ok d) :
    name ∈ dialectNames := by
  have hword : (Dialect.ofWord? name.toList).isSome := by
    unfold dialectOfName at h
    split at h <;> simp_all
  unfold Dialect.ofWord? at hword
  simp only [Bool.or_eq_true, decide_eq_true_eq, String.toList_inj] at hword
  split at hword
  next hn => simp [dialectNames, hn]
  next =>
    split at hword
    next hn => rcases hn with hn | hn <;> simp [dialectNames, hn]
    next => cases hword

theorem throughout_checked_of_readEmpty {n : Node} (h : readEmpty n = .ok ()) :
    n.Throughout Checked .scalar := by
  unfold readEmpty at h
  split at h
  · exact ⟨List.forall_mem_nil _, trivial⟩
  · exact ⟨List.forall_mem_nil _, trivial⟩
  all_goals cases h

/-- A table chooses a dialect by its one key, with nothing under it. -/
theorem readDialect_table {format : Format} {es : List Entry} {closing : Option Problem}
    {d : Dialect} (h : readDialect format (.table es closing) = .ok d) :
    ∃ name m, es = [.mk (.named name) m] ∧ name ∈ dialectNames ∧ m.Throughout Checked .scalar := by
  cases format with
  | toml =>
    change readTomlDialect _ = _ at h
    unfold readTomlDialect at h
    split at h
    next heq => cases heq
    next name m closing hes =>
      obtain ⟨rfl, -⟩ := Node.table.inj hes
      obtain ⟨d', hd, h⟩ := bind_eq_ok_iff.mp h
      obtain ⟨_, he, -⟩ := bind_eq_ok_iff.mp h
      exact ⟨name, m, rfl, mem_dialectNames_of_ok hd, throughout_checked_of_readEmpty he⟩
    all_goals cases h
  | json =>
    change readJsonDialect _ = _ at h
    unfold readJsonDialect at h
    split at h
    next heq => cases heq
    next => cases h
    next name m rest closing hes =>
      obtain ⟨rfl, -⟩ := Node.table.inj hes
      obtain ⟨d', hd, h⟩ := bind_eq_ok_iff.mp h
      obtain ⟨_, hu, h⟩ := bind_eq_ok_iff.mp h
      split at h
      next =>
        refine ⟨name, m, rfl, mem_dialectNames_of_ok hd, ?_⟩
        cases m with
        | null => exact List.forall_mem_nil _
        | _ => cases hu
      all_goals cases h
    all_goals cases h

theorem checks_dialect : Checks (.choice dialectNames) readDialect := by
  intro format n d h _
  cases n with
  | table es closing =>
    obtain ⟨name, m, rfl, hname, hm⟩ := readDialect_table h
    refine Node.throughout_table.mpr ⟨fun key hkey => ?_, fun key n hn => ?_⟩
    · obtain rfl : key = name := by simpa [Node.keys, Entry.name] using hkey
      exact hname
    · obtain ⟨-, rfl⟩ : key = name ∧ n = m := by simpa using hn
      exact hm
  | sequence => cases format <;> cases h
  | _ => exact List.forall_mem_nil _

variable {α : Type} {shape : Shape} {read : Format → Reader α}

theorem Checks.optional (h : Checks shape read) :
    Checks shape fun format => readOptional (read format) := by
  intro format n x hx ht
  rcases readOptional_eq_ok_iff.mp hx with ⟨rfl, -⟩ | ⟨-, -, y, hy, -⟩
  · cases shape with
    | inner => exact rfl
    | literal => exact ⟨rfl, fun _ _ h => by cases h⟩
    | _ => exact List.forall_mem_nil _
  · exact h hy ht

theorem Checks.list (h : Checks shape read) :
    Checks (.list shape) fun format => readList (read format) := by
  intro format n xs hxs ht
  obtain ⟨items, rfl, hitems⟩ := readList_eq_ok_iff.mp hxs
  refine Node.throughout_sequence.mpr ⟨List.forall_mem_nil _, fun m hm => ?_⟩
  obtain ⟨x, hx⟩ := exists_mapM_eq_ok_iff.mp ⟨xs, mapM_eq_ok_iff.mpr hitems⟩ m hm
  exact h hx ((Node.throughout_sequence.mp ht).2 m hm)

/-- The fields have the keys of the shape, and their readers check what they read. -/
structure ChecksFields {σ : Type} (fields : List (String × Shape))
    (slots : Format → List (Slot σ)) : Prop where
  keys : ∀ format, (slots format).map Slot.key = fields.map Prod.fst
  fill : ∀ {format : Format} {key : String} {slot : Slot σ} {n : Node} {r r' : σ},
    (slots format).find? (·.key == key) = some slot → slot.fill n r = .ok r' →
      n.Throughout Tabular ((fields.lookup key).getD .scalar) →
        n.Throughout Checked ((fields.lookup key).getD .scalar)

theorem ChecksFields.nil {σ : Type} : ChecksFields [] fun _ => ([] : List (Slot σ)) :=
  ⟨fun _ => rfl, fun h => by cases h⟩

theorem ChecksFields.cons {key : String} {fields : List (String × Shape)} {σ : Type}
    {set : α → σ → σ} {required : Bool} {slots : Format → List (Slot σ)} (h : Checks shape read)
    (hs : ChecksFields fields slots) :
    ChecksFields ((key, shape) :: fields) fun format =>
      ⟨key, fun n r => (set · r) <$> read format n, required⟩ :: slots format where
  keys format := by rw [List.map_cons, List.map_cons, hs.keys]
  fill := by
    intro format k slot n r r' hslot hfill ht
    rw [List.lookup_cons] at ht ⊢
    by_cases hk : key = k
    · obtain rfl : _ = slot := by simpa [hk] using hslot
      obtain ⟨x, hx, -⟩ := map_eq_ok_iff.mp hfill
      simp only [hk, beq_self_eq_true] at ht ⊢
      exact h hx ht
    · have hk' : (k == key) = false := beq_eq_false_iff_ne.mpr (Ne.symm hk)
      simp only [hk'] at ht ⊢
      exact hs.fill (by simpa [hk] using hslot) hfill ht

theorem ChecksFields.record {fields : List (String × Shape)} {σ : Type} {s : Format → Schema σ}
    (h : ChecksFields fields fun format => (s format).slots) :
    Checks (.record fields) fun format => (s format).read format := by
  intro format n r hr ht
  cases n with
  | sequence => exact absurd ht.here Bool.noConfusion
  | table es closing =>
    obtain ⟨-, -, hall, -⟩ := Schema.readTable_eq_ok_iff.mp hr
    have henter : ∀ e ∈ es, ∃ slot r₁ r₂, (s format).slot? e.name = some slot ∧
        e = .mk (.named e.name) e.value ∧ slot.fill e.value r₁ = .ok r₂ := by
      intro e he
      obtain ⟨r₁, r₂, hr⟩ := Schema.exists_enter_of_enterAll hall he
      obtain ⟨slot, hslot, heq, hfill⟩ := Schema.exists_slot_of_enter hr
      exact ⟨slot, r₁, r₂, hslot, heq, hfill⟩
    refine Node.throughout_table.mpr ⟨fun key hkey => ?_, fun key m hm => ?_⟩
    · obtain ⟨e, he, rfl⟩ := List.mem_map.mp hkey
      obtain ⟨slot, _, _, hslot, -, -⟩ := henter e he
      have hmem := Schema.slot?_isSome_iff.mp (Option.isSome_of_eq_some hslot)
      rwa [Schema.keys, h.keys] at hmem
    · obtain ⟨slot, _, _, hslot, -, hfill⟩ := henter _ hm
      exact h.fill hslot hfill ((Node.throughout_table.mp ht).2 key m hm)
  | _ => exact List.forall_mem_nil _

mutual

/-- All readers check what they read: one case for each way to put readers together. -/
theorem Reads.checks : {shape : Shape} → {α : Type} → {read : Format → Reader α} →
    Reads shape read → Checks shape read
  | _, _, _, .text => checks_text
  | _, _, _, .flag => checks_flag
  | _, _, _, .type => checks_type
  | _, _, _, .literal => checks_literal
  | _, _, _, .dialect => checks_dialect
  | _, _, _, .optional h => h.checks.optional
  | _, _, _, .list h => h.checks.list
  | _, _, _, .record h _ _ => h.checks.record

theorem ReadsFields.checks : {fields : List (String × Shape)} → {σ : Type} →
    {slots : Format → List (Slot σ)} → ReadsFields fields slots → ChecksFields fields slots
  | _, _, _, .nil => .nil
  | _, _, _, .cons h hs => .cons h.checks hs.checks

end

/-! Tables with one more key. -/

/--
The second node is the first with one more entry, in a table somewhere inside that has no such key.
The shapes are those of the places of the nodes and of that table.
-/
inductive Inserted (key : String) (extra : Node) : Shape → Shape → Node → Node → Prop
  | here {shape : Shape} {es fs : List Entry} {closing : Option Problem} (h : key ∉ shape.keys) :
    Inserted key extra shape shape (.table (es ++ fs) closing)
      (.table (es ++ .mk (.named key) extra :: fs) closing)
  | field {shape site : Shape} {k : String} {m m' : Node} {es fs : List Entry}
      {closing : Option Problem} (h : Inserted key extra (shape.under k) site m m') :
    Inserted key extra shape site (.table (es ++ .mk (.named k) m :: fs) closing)
      (.table (es ++ .mk (.named k) m' :: fs) closing)
  | item {shape site : Shape} {m m' : Node} {ms ns : List Node} {closing : Option Problem}
      (h : Inserted key extra shape.item site m m') :
    Inserted key extra shape site (.sequence (ms ++ m :: ns) closing)
      (.sequence (ms ++ m' :: ns) closing)

section Inserted

variable {key : String} {extra : Node} {shape site : Shape} {n n' : Node}

/-- No place for literal values lies inside a scalar one. -/
theorem Inserted.eq_of_everywhere (h : Inserted key extra shape site n n')
    (hs : shape.Everywhere) : site = shape := by
  induction h with
  | here => rfl
  | field _ ih =>
    rw [hs.under] at ih
    exact ih hs
  | item _ ih =>
    rw [hs.item] at ih
    exact ih hs

theorem Inserted.problem? (h : Inserted key extra shape site n n') (he : extra.problem? = none)
    (hn : n.problem? = none) : n'.problem? = none := by
  induction h with
  | here =>
    rw [problem?_table_eq_none_iff] at hn ⊢
    simpa [or_imp, forall_and, Node.entryProblem?, he] using hn
  | field _ ih =>
    rw [problem?_table_eq_none_iff] at hn ⊢
    simp only [List.mem_append, List.mem_cons, or_imp, forall_and, forall_eq, Node.entryProblem?]
      at hn ⊢
    exact ⟨⟨hn.1.1, ih hn.1.2.1, hn.1.2.2⟩, hn.2⟩
  | item _ ih =>
    rw [problem?_sequence_eq_none_iff] at hn ⊢
    simp only [List.mem_append, List.mem_cons, or_imp, forall_and, forall_eq] at hn ⊢
    exact ⟨⟨hn.1.1, ih hn.1.2.1, hn.1.2.2⟩, hn.2⟩

/-- Under a key of no field nothing is looked for. -/
theorem everywhere_under {key : String} (h : key ∉ shape.keys) :
    (shape.under key).Everywhere ∧ ∀ n, Tabular (shape.under key) n := by
  have hscalar : Shape.scalar.Everywhere ∧ ∀ n, Tabular .scalar n :=
    ⟨Shape.everywhere_scalar, fun _ => trivial⟩
  have hinner : Shape.inner.Everywhere ∧ ∀ n, Tabular .inner n :=
    ⟨Shape.everywhere_inner, fun _ => trivial⟩
  cases shape with
  | scalar | choice | list => exact hscalar
  | inner => exact hinner
  | literal =>
    have hk : key ≠ rawKey := fun he => h (List.mem_singleton.mpr he)
    rw [Shape.under, if_neg hk]
    exact hinner
  | record fields =>
    have hl : fields.lookup key = none := by
      rw [List.lookup_eq_none_iff]
      intro p hp
      simp only [bne_iff_ne, ne_eq]
      exact fun he => h (List.mem_map.mpr ⟨p, hp, he.symm⟩)
    rw [Shape.under, hl]
    exact hscalar

theorem Inserted.tabular (h : Inserted key extra shape site n n')
    (hn : n.Throughout Tabular shape) : n'.Throughout Tabular shape := by
  induction h with
  | @here shape es fs closing hkey =>
    rw [Node.throughout_table] at hn ⊢
    refine ⟨by cases shape <;> trivial, fun k m hm => ?_⟩
    rcases List.mem_append.mp hm with hm | hm
    · exact hn.2 k m (List.mem_append_left _ hm)
    · rcases List.mem_cons.mp hm with he | hm
      · obtain ⟨⟨rfl⟩, rfl⟩ := Entry.mk.inj he
        obtain ⟨heverywhere, htabular⟩ := everywhere_under hkey
        exact Node.throughout_of_everywhere heverywhere Node.inherited_true
          (fun n _ => htabular n) m trivial
      · exact hn.2 k m (List.mem_append_right _ hm)
  | @field shape site k m m' es fs closing _ ih =>
    rw [Node.throughout_table] at hn ⊢
    refine ⟨by cases shape <;> trivial, fun l q hq => ?_⟩
    rcases List.mem_append.mp hq with hq | hq
    · exact hn.2 l q (List.mem_append_left _ hq)
    · rcases List.mem_cons.mp hq with he | hq
      · obtain ⟨⟨rfl⟩, rfl⟩ := Entry.mk.inj he
        exact ih (hn.2 _ m (by simp))
      · exact hn.2 l q (List.mem_append_right _ (List.mem_cons_of_mem _ hq))
  | @item shape site m m' ms ns closing _ ih =>
    rw [Node.throughout_sequence] at hn ⊢
    refine ⟨by cases shape <;> exact hn.1, fun q hq => ?_⟩
    rcases List.mem_append.mp hq with hq | hq
    · exact hn.2 q (List.mem_append_left _ hq)
    · rcases List.mem_cons.mp hq with rfl | hq
      · exact ih (hn.2 m (by simp))
      · exact hn.2 q (List.mem_append_right _ (List.mem_cons_of_mem _ hq))

/-- Checks find the new key unless it is loose. -/
theorem Inserted.not_checked (h : Inserted key extra shape site n n') (hs : site.isLoose = false) :
    ¬ n'.Throughout Checked shape := by
  induction h with
  | here hkey =>
    intro hc
    have hknown := hc.here.knownKeys hs
    exact hkey (hknown key (by simp [Node.keys, Entry.name]))
  | field _ ih =>
    intro hc
    exact ih hs ((Node.throughout_table.mp hc).2 _ _ (by simp))
  | item _ ih =>
    intro hc
    exact ih hs ((Node.throughout_sequence.mp hc).2 _ (by simp))

/-- What is put in a loose place has no problem if checks find none. -/
theorem Inserted.extra_problem? (h : Inserted key extra shape site n n')
    (hs : site.isLoose = true) (hc : n'.Throughout Checked shape) : extra.problem? = none := by
  induction h with
  | here =>
    have hp := problem?_table_eq_none_iff.mp (hc.here.problem? hs)
    exact hp.1 (.mk (.named key) extra) (by simp)
  | field _ ih => exact ih hs ((Node.throughout_table.mp hc).2 _ _ (by simp))
  | item _ ih => exact ih hs ((Node.throughout_sequence.mp hc).2 _ (by simp))

end Inserted

/-! Readers overlook what is loose. -/

/-- A new key in a loose place changes nothing in what is read. -/
def Overlooks {α : Type} (shape : Shape) (read : Format → Reader α) : Prop :=
  ∀ ⦃key : String⦄ ⦃extra n n' : Node⦄ ⦃site : Shape⦄, Inserted key extra shape site n n' →
    site.isLoose = true → extra.problem? = none →
      ∀ ⦃format : Format⦄ ⦃x : α⦄, read format n = .ok x → read format n' = .ok x

theorem overlooks_scalar {α : Type} (read : Format → Reader α) : Overlooks .scalar read := by
  intro key extra n n' site h hs
  rw [h.eq_of_everywhere Shape.everywhere_scalar] at hs
  cases hs

theorem overlooks_choice {α : Type} (words : List String) (read : Format → Reader α) :
    Overlooks (.choice words) read := by
  intro key extra n n' site h hs
  cases h with
  | here => cases hs
  | field h | item h =>
    rw [h.eq_of_everywhere Shape.everywhere_scalar] at hs
    cases hs

theorem filter_isRaw_insert {es fs : List Entry} {key : String} {m : Node} (h : key ≠ rawKey) :
    (es ++ .mk (.named key) m :: fs).filter Entry.isRaw = (es ++ fs).filter Entry.isRaw := by
  simp [Entry.isRaw, h]

theorem overlooks_literal : Overlooks .literal fun _ => readValue := by
  intro key extra n n' site h hs he _ v hv
  obtain ⟨hp, hv⟩ := readValue_eq_ok_iff.mp hv
  refine readValue_eq_ok_iff.mpr ⟨h.problem? he hp, ?_⟩
  cases h with
  | here hkey =>
    have hk : key ≠ rawKey := fun hk => hkey (List.mem_singleton.mpr hk)
    rw [value?, rawExpression?_eq] at hv ⊢
    rwa [filter_isRaw_insert hk]
  | @field _ _ k m m' es fs closing h =>
    by_cases hk : k = rawKey
    · rw [Shape.under, if_pos hk] at h
      rw [h.eq_of_everywhere Shape.everywhere_scalar] at hs
      cases hs
    · rw [value?, rawExpression?_eq] at hv ⊢
      rwa [filter_isRaw_insert hk] at hv ⊢
  | item => cases hv

section Overlooks

variable {α : Type} {shape : Shape} {read : Format → Reader α}

theorem Overlooks.optional (h : Overlooks shape read) :
    Overlooks shape fun format => readOptional (read format) := by
  intro key extra n n' site hi hs he format x hx
  rcases readOptional_eq_ok_iff.mp hx with ⟨rfl, -⟩ | ⟨-, -, y, hy, rfl⟩
  · cases hi
  · have hn' : n' ≠ .null ∧ ∀ p, n' ≠ .broken .null p := by cases hi <;> exact ⟨nofun, nofun⟩
    exact readOptional_eq_ok_iff.mpr (.inr ⟨hn'.1, hn'.2, y, h hi hs he hy, rfl⟩)

/-- One item can be replaced by another that is related to as much. -/
theorem forall₂_replace {β : Type} {R : α → β → Prop} {m m' : α} (h : ∀ y, R m y → R m' y)
    {ms ns : List α} {ys : List β} (hr : List.Forall₂ R (ms ++ m :: ns) ys) :
    List.Forall₂ R (ms ++ m' :: ns) ys := by
  induction ms generalizing ys with
  | nil =>
    obtain ⟨y, ys, hy, hys, rfl⟩ := List.forall₂_cons_left_iff.mp hr
    exact .cons (h y hy) hys
  | cons a ms ih =>
    obtain ⟨y, ys, hy, hys, rfl⟩ := List.forall₂_cons_left_iff.mp hr
    exact .cons hy (ih hys)

theorem Overlooks.list (h : Overlooks shape read) :
    Overlooks (.list shape) fun format => readList (read format) := by
  intro key extra n n' site hi hs he format xs hxs
  obtain ⟨items, rfl, hitems⟩ := readList_eq_ok_iff.mp hxs
  cases hi with
  | item hi =>
    exact readList_eq_ok_iff.mpr ⟨_, rfl, forall₂_replace (fun _ hy => h hi hs he hy) hitems⟩

/-- Fields overlook what is loose in them. -/
def OverlooksFields {σ : Type} (fields : List (String × Shape))
    (slots : Format → List (Slot σ)) : Prop :=
  ∀ ⦃format : Format⦄ ⦃k key : String⦄ ⦃slot : Slot σ⦄ ⦃extra m m' : Node⦄ ⦃site : Shape⦄,
    (slots format).find? (·.key == k) = some slot →
      Inserted key extra ((fields.lookup k).getD .scalar) site m m' →
        site.isLoose = true → extra.problem? = none →
          ∀ ⦃r r' : σ⦄, slot.fill m r = .ok r' → slot.fill m' r = .ok r'

theorem OverlooksFields.nil {σ : Type} : OverlooksFields [] fun _ => ([] : List (Slot σ)) := nofun

theorem OverlooksFields.cons {key : String} {fields : List (String × Shape)} {σ : Type}
    {set : α → σ → σ} {required : Bool} {slots : Format → List (Slot σ)} (h : Overlooks shape read)
    (hs : OverlooksFields fields slots) :
    OverlooksFields ((key, shape) :: fields) fun format =>
      ⟨key, fun n r => (set · r) <$> read format n, required⟩ :: slots format := by
  intro format k key' slot extra m m' site hslot hi hloose he r r' hfill
  rw [List.lookup_cons] at hi
  by_cases hk : key = k
  · obtain rfl : _ = slot := by simpa [hk] using hslot
    obtain ⟨x, hx, rfl⟩ := map_eq_ok_iff.mp hfill
    simp only [hk, beq_self_eq_true] at hi
    exact map_eq_ok_iff.mpr ⟨x, h hi hloose he hx, rfl⟩
  · have hk' : (k == key) = false := beq_eq_false_iff_ne.mpr (Ne.symm hk)
    simp only [hk'] at hi
    exact hs (by simpa [hk] using hslot) hi hloose he hfill

theorem OverlooksFields.record {fields : List (String × Shape)} {σ : Type} {s : Format → Schema σ}
    (h : OverlooksFields fields fun format => (s format).slots) :
    Overlooks (.record fields) fun format => (s format).read format := by
  intro key extra n n' site hi hs he format r hr
  cases hi with
  | here => cases hs
  | item hi =>
    rw [hi.eq_of_everywhere Shape.everywhere_scalar] at hs
    cases hs
  | @field _ _ k m m' es fs closing hi =>
    obtain ⟨hc, hn, hall, hreq⟩ := Schema.readTable_eq_ok_iff.mp hr
    have hnames : (es ++ .mk (.named k) m' :: fs).map Entry.name =
        (es ++ .mk (.named k) m :: fs).map Entry.name := by simp [Entry.name]
    refine Schema.readTable_eq_ok_iff.mpr
      ⟨hc, hnames ▸ hn, Schema.enterAll_replace (fun r r' hr => ?_) hall, hnames ▸ hreq⟩
    obtain ⟨slot, hslot, hfill⟩ := Option.bind_eq_some_iff.mp hr
    have hfill' := h hslot hi hs he (toOption_eq_some_iff.mp hfill)
    exact Option.bind_eq_some_iff.mpr ⟨slot, hslot, toOption_eq_some_iff.mpr hfill'⟩

end Overlooks

mutual

/-- All readers overlook what is loose: one case for each way to put readers together. -/
theorem Reads.overlooks : {shape : Shape} → {α : Type} → {read : Format → Reader α} →
    Reads shape read → Overlooks shape read
  | _, _, _, .text | _, _, _, .flag | _, _, _, .type => overlooks_scalar _
  | _, _, _, .literal => overlooks_literal
  | _, _, _, .dialect => overlooks_choice _ _
  | _, _, _, .optional h => h.overlooks.optional
  | _, _, _, .list h => h.overlooks.list
  | _, _, _, .record h _ _ => h.overlooks.record

theorem ReadsFields.overlooks : {fields : List (String × Shape)} → {σ : Type} →
    {slots : Format → List (Slot σ)} → ReadsFields fields slots → OverlooksFields fields slots
  | _, _, _, .nil => .nil
  | _, _, _, .cons h hs => .cons h.overlooks hs.overlooks

end

/-! Loading. -/

/--
All keys of a manifest that is loaded are known, but those in its tables for literal values, which
have one entry for an expression each. With one more key, of no field, it is loaded only if the key
stands in such a table, or further inside, over something without problems; the key then changes
nothing.
-/
theorem load_with_extra_key_iff {format : Format} {source filename : String} {f : File} {n : Node}
    (hn : (document format source).root = n) (hl : load format source filename = .ok f)
    (ht : n.Throughout Tabular fileShape) :
    n.Throughout Checked fileShape ∧
    ∀ key extra site n', Inserted key extra fileShape site n n' →
      ∀ source', document format source' = ⟨n', false⟩ → ∀ filename' g,
        load format source' filename' = .ok g ↔
          site.isLoose = true ∧ extra.problem? = none ∧ g = f := by
  obtain ⟨hd, hv⟩ := (File.load_eq_ok_iff ..).mp hl
  obtain ⟨-, hr⟩ := decode_eq_ok_iff.mp hd
  rw [hn] at hr
  refine ⟨reads_file.checks hr ht, fun key extra site n' hi source' hdoc filename' g => ?_⟩
  rw [File.load_eq_ok_iff, decode_eq_ok_iff, hdoc]
  constructor
  · rintro ⟨⟨-, hr'⟩, -⟩
    have hc := reads_file.checks hr' (hi.tabular ht)
    have hs : site.isLoose = true := by
      by_contra hs
      exact hi.not_checked (Bool.not_eq_true _ ▸ hs) hc
    have he := hi.extra_problem? hs hc
    have hr'' := reads_file.overlooks hi hs he hr
    exact ⟨hs, he, Except.ok.inj (hr'.symm.trans hr'')⟩
  · rintro ⟨hs, he, rfl⟩
    exact ⟨⟨rfl, reads_file.overlooks hi hs he hr⟩, hv⟩

/-! An expression with a misspelt key beside it. -/

namespace Misspelt

def toml : String := "[[variables]]\nname = \"X\"\nvalue = \x7b raw = \"f()\" \x7d\n"

def misspelt : String := "[[variables]]\nname = \"X\"\nvalue = \x7b raw = \"f()\", rwa = 1 \x7d\n"

def raw : Entry := .mk (.named "raw") (.text "f()")

/-- The document with these entries in the table for the value. -/
def root (value : List Entry) : Node :=
  .table [.mk (.named "variables") (.sequence
    [.table [.mk (.named "name") (.text "X"), .mk (.named "value") (.table value none)] none]
    none)] none

def file : File where
  vars := [{ name := "X", value := some (.raw "f()") }]

theorem document_toml : document .toml toml = ⟨root [raw], false⟩ := by cbv

theorem document_misspelt :
    document .toml misspelt = ⟨root [raw, .mk (.named "rwa") (.integer 1)], false⟩ := by cbv

theorem load_toml : load .toml toml "decl.toml" = .ok file := by decide +kernel

theorem load_misspelt : load .toml misspelt "decl.toml" = .ok file := by
  rw [File.load_eq_ok_iff, decode_eq_ok_iff, document_misspelt]
  exact ⟨⟨rfl, by cbv⟩, by decide +kernel⟩

theorem under_value : variableShape.under "value" = .literal := by
  simp [variableShape, Shape.under, List.lookup_cons]

theorem item_under_variables : (fileShape.under "variables").item = variableShape := by
  simp [fileShape, Shape.under, Shape.item, List.lookup_cons]

theorem inserted : Inserted "rwa" (.integer 1) fileShape .literal (root [raw])
    (root [raw, .mk (.named "rwa") (.integer 1)]) := by
  refine @Inserted.field _ _ _ _ _ _ _ [] [] _ (@Inserted.item _ _ _ _ _ _ [] [] _ ?_)
  rw [item_under_variables]
  refine @Inserted.field _ _ _ _ _ _ _ [.mk (.named "name") (.text "X")] [] _ ?_
  rw [under_value]
  exact @Inserted.here _ _ _ [raw] [] _ (by simp [Shape.keys, rawKey])

theorem load_with_extra_key_misspelt :
    (document .toml toml).root = root [raw] ∧ load .toml toml "decl.toml" = .ok file ∧
      (root [raw]).Throughout Tabular fileShape ∧ load .toml misspelt "decl.toml" = .ok file := by
  have hn : (document .toml toml).root = root [raw] := by rw [document_toml]
  have ht : (root [raw]).Throughout Tabular fileShape := by
    simp [root, raw, Node.Throughout, Node.entriesThroughout, Node.entryThroughout,
      Node.itemsThroughout, Tabular, Node.isSequence, fileShape, variableShape, Shape.under,
      Shape.item, List.lookup_cons, rawKey]
  have h := (load_with_extra_key_iff hn load_toml ht).2 _ _ _ _ inserted misspelt
    document_misspelt "decl.toml" file
  have hp : (Node.integer 1).problem? = none := by rw [Node.problem?, if_pos (by decide)]
  exact ⟨hn, load_toml, ht, h.mpr ⟨rfl, hp, rfl⟩⟩

/-- The misspelt key is none of the schema, and what is loaded does not show it. -/
theorem misspelt_unknown :
    document .toml misspelt = ⟨root [raw, .mk (.named "rwa") (.integer 1)], false⟩ ∧
      load .toml misspelt "decl.toml" = .ok file ∧
      ¬ (root [raw, .mk (.named "rwa") (.integer 1)]).Throughout KnownKeys fileShape := by
  refine ⟨document_misspelt, load_misspelt, ?_⟩
  simp [root, raw, Node.Throughout, Node.entriesThroughout, Node.entryThroughout,
    Node.itemsThroughout, KnownKeys, Node.keys, Entry.name, fileShape, variableShape, Shape.under,
    Shape.item, Shape.keys, List.lookup_cons, rawKey]

end Misspelt

end Ambient.Manifest
