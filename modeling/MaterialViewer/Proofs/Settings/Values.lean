import Mathlib.Data.List.Nodup
import MaterialViewer.Proofs.Notation.Numeral
import MaterialViewer.Proofs.Notation.RoundTrip
import MaterialViewer.Settings.Reading

/-!
# Proofs: values in settings

Each kind of value that settings are made of is read from what is written for it. A list, a table or
a record is, if the values in it are.
-/

namespace MaterialViewer.Settings

open Notation Number

variable {α : Type} {depth : Nat}

/-- A value is written as a tree that survives printing, and is read from what it then is. -/
structure IsWritten (read : Notation → Option α) (depth : Nat) (n : Notation) (a : α) : Prop where
  printable : IsPrintable depth n
  read : read (asRead n) = some a

/-! ## Words -/

/-- Whether a name is made of letters of the ASCII range and low lines. -/
def isName (name : String) : Bool :=
  !name.toList.isEmpty && name.toList.all fun c => c.isAlpha || c = '_'

theorem isReadable_of_isName {name : String} (h : isName name = true) :
    (Word.plain name).IsReadable := by
  obtain ⟨hne, hchars⟩ := Bool.and_eq_true_iff.mp h
  have hstart : ∀ c ∈ name.toList, (Text.isWordStart c || c = '_') = true := by
    intro c hc
    rcases Bool.or_eq_true_iff.mp (List.all_eq_true.mp hchars c hc) with halpha | hline
    · rw [Text.isWordStart_of_isAlpha halpha, Bool.true_or]
    · rw [hline, Bool.or_true]
  have hpart : ∀ c ∈ name.toList, Text.isWordPart c = true := by
    intro c hc
    rcases Bool.or_eq_true_iff.mp (hstart c hc) with hword | hline
    · exact isWordPart_of_isWordStart hword
    · rw [of_decide_eq_true hline]
      exact isWordPart_lowLine
  obtain ⟨c, cs, hcs⟩ : ∃ c cs, name.toList = c :: cs := by
    refine List.exists_cons_of_ne_nil fun hempty => ?_
    rw [hempty] at hne
    cases hne
  rw [hcs] at hstart hpart
  exact ⟨c, cs, hcs, hstart c List.mem_cons_self,
    fun d hd => hpart d (List.mem_cons_of_mem _ hd)⟩

theorem isMarkedPart_of_isAlpha {cs : List Char} (h : cs.all Char.isAlpha = true) :
    ∀ c ∈ cs, isMarkedPart c = true := by
  intro c hc
  have halpha := List.all_eq_true.mp h c hc
  exact isMarkedPart_of_beginsWord (beginsWord_of_isAlpha halpha)

theorem isWritten_bool (depth : Nat) (b : Bool) : IsWritten bool? depth (boolNotation b) b := by
  cases b with
  | true => exact ⟨.word (isReadable_of_isName (by decide)), rfl⟩
  | false => exact ⟨.word (isReadable_of_isName (by decide)), rfl⟩

theorem isWritten_interface (depth : Nat) (i : ShaderInterface) :
    IsWritten (choice? interfaceNames) depth (.choice (choiceName interfaceNames i)) i := by
  cases i with
  | complete => exact ⟨.word (isReadable_of_isName (by decide)), rfl⟩
  | reduced => exact ⟨.word (isReadable_of_isName (by decide)), rfl⟩

theorem isWritten_method (depth : Nat) (m : EnvironmentMethod) :
    IsWritten (choice? methodNames) depth (.choice (choiceName methodNames m)) m := by
  cases m with
  -- the name of this choice is a reserved word, so it has a mark
  | none => exact ⟨.word ⟨by decide, isMarkedPart_of_isAlpha (by decide)⟩, rfl⟩
  | prefilter => exact ⟨.word (isReadable_of_isName (by decide)), rfl⟩
  | fis => exact ⟨.word (isReadable_of_isName (by decide)), rfl⟩

/-! ## Texts and numbers -/

theorem isWritten_text (depth : Nat) (s : String) : IsWritten text? depth (.text s) s :=
  ⟨.text s, rfl⟩

/-- Digits with a sign, a point or nothing before them are a number. -/
theorem isNumeral_of_chars {c : Char} {cs : List Char} (hc : beginsNumber c = true)
    (hcs : ∀ d ∈ cs, d.isDigit = true ∨ d = '.') : IsNumeral (c :: cs) := by
  refine .inl ⟨c, cs, rfl, hc, fun d hd => ?_⟩
  rcases hcs d hd with hdigit | rfl
  · exact isMarkedPart_of_isWordPart (isWordPart_of_isDigit hdigit)
  · exact isMarkedPart_of_beginsNumber rfl

theorem beginsNumber_of_isDigit {c : Char} (hc : c.isDigit = true) : beginsNumber c = true := by
  rw [beginsNumber, hc, Bool.true_or]

theorem asRead_of_beginsNumber {c : Char} {cs : List Char} (hc : beginsNumber c = true) :
    asRead (.number (c :: cs)) = .number (c :: cs) := by
  rw [asRead_number, List.head?_cons, Option.any_some, if_pos hc]

theorem isWritten_nat {bits n : Nat} (depth : Nat) (hn : n < 2 ^ bits) :
    IsWritten (nat? bits) depth (natNotation n) n := by
  have hread := toNat?_natText hn
  have hdigits : ∀ c ∈ natText n, c.isDigit = true := fun c => isDigit_of_mem_natText
  obtain ⟨c, cs, hcs⟩ := List.exists_cons_of_ne_nil (l := natText n) Nat.toDigits_ne_nil
  rw [hcs] at hread hdigits
  have hc : beginsNumber c = true := beginsNumber_of_isDigit (hdigits c List.mem_cons_self)
  rw [natNotation, hcs]
  refine ⟨.number (isNumeral_of_chars hc fun d hd => ?_), ?_⟩
  · exact .inl (hdigits d (List.mem_cons_of_mem _ hd))
  · rw [asRead_of_beginsNumber hc]
    exact hread

/-- A finite single is written with a fraction. -/
theorem singleNotation_of_isFinite {x : Single} (hx : x.isFinite = true) :
    singleNotation x = .number (signText x ++ digitsText 1 x) := by
  have hsign : (signText x).contains '.' = false := by
    unfold signText
    cases x.isNegative <;> rfl
  have hcontains : (signText x ++ digitsText 0 x).contains '.' = (digitsText 0 x).contains '.' := by
    rw [List.contains_append, hsign, Bool.false_or]
  have hone : digitsText 1 x =
      if (digitsText 0 x).contains '.' then digitsText 0 x else digitsText 0 x ++ ['.', '0'] :=
    positional_one (isDigit_of_mem_significand _) _
  rw [singleNotation, plainText_of_isFinite hx, isNaN_of_isFinite hx, hx, hcontains, hone]
  cases (digitsText 0 x).contains '.' with
  | true => rfl
  | false => simp

theorem isWritten_single {x : Single} (depth : Nat) (hx : x.isNaN = false) :
    IsWritten single? depth (singleNotation x) x := by
  by_cases hfinite : x.isFinite = true
  · obtain ⟨c, cs, htext, hc, hcs⟩ : ∃ c cs, signText x ++ digitsText 1 x = c :: cs ∧
        beginsNumber c = true ∧ ∀ d ∈ cs, d.isDigit = true ∨ d = '.' := by
      obtain ⟨d, rest, htext, hd⟩ := digitsText_eq_cons 1 x
      unfold signText
      cases x.isNegative with
      | true => exact ⟨'-', _, rfl, rfl, fun _ => mem_digitsText⟩
      | false =>
        refine ⟨d, rest, htext, beginsNumber_of_isDigit hd, fun e he => ?_⟩
        exact mem_digitsText (htext ▸ List.mem_cons_of_mem d he)
    have hread := Notation.readSingle?_signed hfinite 1
    rw [singleNotation_of_isFinite hfinite, htext]
    rw [htext] at hread
    refine ⟨.number (isNumeral_of_chars hc hcs), ?_⟩
    rw [asRead_of_beginsNumber hc]
    exact hread
  · rcases eq_infinity_of_not_isFinite hx hfinite with rfl | rfl
    · exact ⟨.number (.inr (isReadable_of_isName (by decide))), rfl⟩
    · have hparts : ∀ d ∈ ['i', 'n', 'f'], isMarkedPart d = true :=
        isMarkedPart_of_isAlpha (by decide)
      exact ⟨.number (.inl ⟨'-', ['i', 'n', 'f'], rfl, rfl, hparts⟩), rfl⟩

/-! ## Lists -/

theorem mapM_asRead {item : Notation → Option α} {write : α → Notation} {as : List α}
    (h : ∀ a ∈ as, item (asRead (write a)) = some a) :
    ((as.map write).map asRead).mapM item = some as := by
  induction as with
  | nil => rfl
  | cons a as ih =>
    rw [List.map_cons, List.map_cons, List.mapM_cons, h a List.mem_cons_self,
      ih fun b hb => h b (List.mem_cons_of_mem _ hb)]
    rfl

theorem isWritten_sequence {item : Notation → Option α} {write : α → Notation} {as : List α}
    (h : ∀ a ∈ as, IsWritten item depth (write a) a) :
    IsWritten (sequence? item) (depth + 1) (.sequence (as.map write)) as := by
  refine ⟨.sequence (List.forall_mem_map.mpr fun a ha => (h a ha).printable), ?_⟩
  rw [asRead_sequence]
  exact mapM_asRead fun a ha => (h a ha).read

theorem isWritten_tuple {item : Notation → Option α} {write : α → Notation} {as : List α}
    (hne : as ≠ []) (h : ∀ a ∈ as, IsWritten item depth (write a) a) :
    IsWritten (tuple? item) (depth + 1) (.tuple none (as.map write)) as := by
  have hitems : as.map write ≠ [] := fun heq => hne (List.map_eq_nil_iff.mp heq)
  refine ⟨.tuple (fun w hw => absurd hw (Option.not_mem_none w)) hitems
    (List.forall_mem_map.mpr fun a ha => (h a ha).printable), ?_⟩
  rw [asRead_tuple]
  exact mapM_asRead fun a ha => (h a ha).read

/-- Entries with distinct keys are read in the order in which they are written. -/
theorem isWritten_table {entries : List (String × String)}
    (hkeys : (entries.map Prod.fst).Nodup) :
    IsWritten table? (depth + 1) (.table (entries.map fun (a, b) => (.text a, .text b)))
      entries := by
  have hfold : ∀ found more : List (String × String), ((found ++ more).map Prod.fst).Nodup →
      (more.map fun (a, b) => (Notation.text a, Notation.text b)).foldlM (fun found e => do
        return Ordered.put (← text? e.1) (← text? e.2) found) found = some (found ++ more) := by
    intro found more hnodup
    induction more generalizing found with
    | nil => rw [List.append_nil]; rfl
    | cons e more ih =>
      obtain ⟨key, value⟩ := e
      have hnew : Ordered.get? key found = none := by
        refine Ordered.get?_eq_none_iff.mpr fun hmem => ?_
        rw [List.map_append] at hnodup
        exact (List.nodup_append.mp hnodup).2.2 key hmem key List.mem_cons_self rfl
      have hput := Ordered.put_of_get?_eq_none hnew value
      have happend : found ++ (key, value) :: more = (found ++ [(key, value)]) ++ more := by simp
      rw [happend] at hnodup ⊢
      rw [← ih (found ++ [(key, value)]) hnodup, ← hput]
      rfl
  refine ⟨.table ?_ ?_, ?_⟩
  · exact List.forall_mem_map.mpr fun e _ => .text e.1
  · exact List.forall_mem_map.mpr fun e _ => .text e.2
  · rw [asRead_table, List.map_map]
    exact hfold [] entries hkeys

/-! ## Records -/

/-- A record is read as its fields, if they are some of the known ones in their order. -/
theorem isWritten_fields {levels : Nat} {name : String} {known : List String}
    {fields : List (String × Notation)}
    (hnames : ∀ word ∈ name :: known, isName word = true) (hknown : known.Nodup) (hne : fields ≠ [])
    (hkeys : (fields.map Prod.fst).Sublist known) (h : ∀ f ∈ fields, IsPrintable depth f.2) :
    IsWritten (fields? {} levels name known) (depth + 1) (.record (some (.plain name)) fields)
      (fieldsAsRead fields) := by
  have hmem : ∀ f ∈ fields, f.1 ∈ known := fun f hf => hkeys.subset (List.mem_map_of_mem hf)
  refine ⟨.record ?_ hne (fun f hf => ?_) h, ?_⟩
  · rintro w ⟨⟩
    exact isReadable_of_isName (hnames name List.mem_cons_self)
  · exact isReadable_of_isName (hnames f.1 (List.mem_cons_of_mem _ (hmem f hf)))
  have hread : (fieldsAsRead fields).map Prod.fst = fields.map Prod.fst := by
    rw [fieldsAsRead_eq, List.map_map]
    rfl
  have honce : (known.all fun key => ((fieldsAsRead fields).filter (·.1 = key)).length ≤ 1) =
      true := by
    refine List.all_eq_true.mpr fun key _ => decide_eq_true ?_
    have hcount := List.nodup_iff_count_le_one.mp (hkeys.nodup hknown) key
    rw [← hread, List.count_eq_countP, List.countP_map, List.countP_eq_length_filter] at hcount
    exact hcount
  have hmeaning : ∀ f ∈ fieldsAsRead fields, (known.contains f.1 ||
      f.2.isMeaningful {} (Notation.fieldDepth levels)) = true := by
    intro f hf
    have hkey : f.1 ∈ fields.map Prod.fst := hread ▸ List.mem_map_of_mem hf
    exact Bool.or_eq_true_iff.mpr (.inl (List.contains_iff_mem.mpr (hkeys.subset hkey)))
  have hsame : ((Word.plain name).name == name) = true := beq_self_eq_true name
  rw [asRead_record, fields?]
  simp only [Option.bind_eq_bind, Option.bind_some, Option.map_some, Option.getD_some, hsame, honce]
  rw [List.all_eq_true.mpr hmeaning]
  rfl

theorem lookup_fieldsAsRead (fields : List (String × Notation)) (key : String) :
    (fieldsAsRead fields).lookup key = (fields.lookup key).map asRead := by
  induction fields with
  | nil => rfl
  | cons f fields ih =>
    obtain ⟨name, value⟩ := f
    rw [fieldsAsRead, List.lookup_cons, List.lookup_cons, ih]
    split
    · rfl
    · rfl

theorem bind_eq_some {α β : Type} {x : Option α} {f : α → Option β} {a : α} {b : β}
    (hx : x = some a) (hf : f a = some b) : x >>= f = some b := by
  rw [hx]
  exact hf

section

variable {read : Notation → Option α} {n : Notation} {a : α}

theorem field?_of_lookup {fields : List (String × Notation)} {key : String}
    (hlookup : fields.lookup key = some n) (h : IsWritten read depth n a) :
    field? (fieldsAsRead fields) key read = some a := by
  rw [field?, lookup_fieldsAsRead, hlookup]
  exact h.read

theorem fieldOr_of_lookup {fields : List (String × Notation)} {key : String} {default : α}
    (hlookup : fields.lookup key = some n) (h : IsWritten read depth n a) :
    fieldOr (fieldsAsRead fields) key default read = some a := by
  rw [fieldOr, lookup_fieldsAsRead, hlookup]
  exact h.read

/-! ## Options -/

theorem isWritten_some (h : IsWritten read depth n a) (isTuple : Bool) :
    IsWritten (option? {} isTuple read) (depth + 1) (.tuple (some (.plain "Some")) [n])
      (some a) := by
  refine ⟨.tuple ?_ (List.cons_ne_nil _ _) (List.forall_mem_singleton.mpr h.printable), ?_⟩
  · rintro w ⟨⟩
    exact isReadable_of_isName (by decide)
  · rw [asRead_tuple, List.map_singleton, option?, if_pos rfl]
    exact congrArg (Option.map some) h.read

theorem keys_optionalField (name : String) (value? : Option Notation) :
    ((optionalField name value?).map Prod.fst).Sublist [name] := by
  cases value? with
  | none => exact List.nil_sublist _
  | some value => exact List.Sublist.refl _

@[simp]
theorem lookup_optionalField_self (name : String) (value? : Option Notation) :
    (optionalField name value?).lookup name =
      value?.map fun value => .tuple (some (.plain "Some")) [value] := by
  cases value? with
  | none => rfl
  | some value => exact List.lookup_cons_self

@[simp]
theorem lookup_optionalField_of_ne {name key : String} (h : key ≠ name)
    (value? : Option Notation) : (optionalField name value?).lookup key = none := by
  cases value? with
  | none => rfl
  | some value =>
    rw [optionalField, List.lookup_cons, beq_false_of_ne h]
    rfl

variable {value? : Option α} {write : α → Notation}

theorem isPrintable_optionalField (h : ∀ a ∈ value?, IsWritten read depth (write a) a)
    (name : String) : ∀ f ∈ optionalField name (value?.map write), IsPrintable (depth + 1) f.2 := by
  cases value? with
  | none => exact fun f hf => absurd hf List.not_mem_nil
  | some a =>
    have hsome := isWritten_some (h a rfl) false
    exact List.forall_mem_singleton.mpr hsome.printable

/-- A field without a value is left out, and is read as the default. -/
theorem fieldOr_option {fields : List (String × Notation)} {key : String}
    (hlookup : fields.lookup key =
      (value?.map write).map fun value => .tuple (some (.plain "Some")) [value])
    (h : ∀ a ∈ value?, IsWritten read depth (write a) a) (isTuple : Bool) (default : Option α) :
    fieldOr (fieldsAsRead fields) key default (option? {} isTuple read) =
      some (value?.or default) := by
  cases value? with
  | none => rw [fieldOr, lookup_fieldsAsRead, hlookup]; rfl
  | some a => exact fieldOr_of_lookup hlookup (isWritten_some (h a rfl) isTuple)

end

end MaterialViewer.Settings
