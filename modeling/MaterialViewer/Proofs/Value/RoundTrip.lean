import MaterialViewer.Proofs.Lists
import MaterialViewer.Proofs.Number.Integer
import MaterialViewer.Value.Basic

/-!
# Proofs: reading the text of a value

A value that was read from a text is written in a form from which it is read again, as a value of
its own type, unless it holds a NaN. For lists this rests on the fields: what is written for a
number has neither commas nor blanks, and an item of a list of strings was trimmed and cut at commas
when it was read. A tuple is read from just those texts that have as many numbers between commas as
it needs; blank parts do not count.
-/

namespace MaterialViewer

open Text (IsField isBlank trimWhile)
open Number (int32Text plainText readInt32? readSingle?)

namespace Text

variable {c : Char}

theorem isBlank_of_isDigit (hc : c.isDigit = true) : isBlank c = false := by
  obtain ⟨hlow, hhigh⟩ := toNat_of_isDigit hc
  simp only [isBlank, blankCodes, List.contains_eq_mem, decide_eq_false_iff_not, List.mem_cons,
    List.not_mem_nil, or_false]
  omega

theorem trim_ofList {cs : List Char} (h : IsField ',' cs) :
    (Text.trim (String.ofList cs)).toList = cs := by
  rw [trim, String.toList_ofList, String.toList_ofList, h.trimWhile_eq]

end Text

namespace Value

variable {α : Type} {v : Value} {type : ValueType} {text : String}

/-! ## Lists -/

theorem isField_of_digits (others : List Char) {cs : List Char} (hne : cs ≠ [])
    (h : ∀ c ∈ cs, c.isDigit = true ∨ c ∈ others)
    (hothers : others.all (fun c => c ≠ ',' && !isBlank c) = true) : IsField ',' cs := by
  refine Text.isField_of_solid hne fun c hc => ?_
  rcases h c hc with hdigit | hother
  · refine ⟨?_, Text.isBlank_of_isDigit hdigit⟩
    rintro rfl
    exact absurd hdigit (by decide)
  · simpa using List.all_eq_true.mp hothers c hother

theorem isField_int32Text (i : Int32) : IsField ',' (int32Text i) := by
  have hne : int32Text i ≠ [] := by
    intro h
    have hread := Number.readInt32?_int32Text i
    rw [h] at hread
    cases hread
  refine isField_of_digits ['-'] hne (fun c hc => ?_) (by decide)
  rw [List.mem_singleton]
  exact Number.mem_int32Text hc

theorem isField_plainText {x : Single} (hx : x.isNaN = false) : IsField ',' (plainText x) :=
  isField_of_digits ['-', '.', 'i', 'n', 'f'] (Number.plainText_ne_nil hx)
    (fun _ => Number.mem_plainText hx) (by decide)

theorem fieldChars_listText {items : List (List Char)} (h : ∀ item ∈ items, IsField ',' item) :
    Text.fieldChars ',' (listText items).toList = items := by
  have htext : (listText items).toList = [',', ' '].intercalate items := by
    rw [listText, Text.joinWith, String.toList_intercalate, Text.map_toList_map_ofList]
    rfl
  rw [htext, Text.fieldChars_intercalate (by decide) h]

/-- The items of a list are read from the text that is written for them. -/
theorem readItems?_listText {read : List Char → Option α} {write : α → List Char} {items : List α}
    (hread : ∀ item ∈ items, read (write item) = some item)
    (hfield : ∀ item ∈ items, IsField ',' (write item)) :
    readItems? read (listText (items.map write)) = some items := by
  rw [readItems?, fieldChars_listText (List.forall_mem_map.mpr hfield), mapM_eq_some_iff,
    List.forall₂_map_left_iff, List.forall₂_same]
  exact hread

theorem fields_listText {items : List String} (h : ∀ item ∈ items, IsField ',' item.toList) :
    Text.fields ',' (Text.joinWith ", " items) = items := by
  have htext : Text.joinWith ", " items = listText (items.map String.toList) := by
    rw [listText, Text.map_ofList_map_toList]
  rw [Text.fields, htext, fieldChars_listText (List.forall_mem_map.mpr h),
    Text.map_ofList_map_toList]

/-! ## What is read -/

theorem eq_some_of_require {found : Option Value} {error : ValueError}
    (h : (match found with
      | some value => Except.ok value
      | none => Except.error error) = Except.ok v) : found = some v := by
  cases found with
  | none => cases h
  | some value => rw [Except.ok.inj h]

theorem ofComponents?_eq_some_iff {shape : TupleType} {components : List Single} :
    ofComponents? shape components = some v ↔
      ∃ h : components.length = shape.size, v = tuple shape components h := by
  unfold ofComponents?
  split
  · rename_i hsize
    simp [hsize, eq_comm]
  · rename_i hsize
    simp [hsize]

/-- What is read is of the type that was asked for; where that is not a known type, it is a
string. -/
theorem type_of_parse (h : parse type text = .ok v) : v.type = type ∨ v = string text := by
  cases type with
  | string | custom _ => exact .inr (Except.ok.inj h).symm
  | filename | stringArray => exact .inl (congrArg Value.type (Except.ok.inj h).symm)
  | closure _ => cases h
  | tuple shape =>
    obtain ⟨components, -, hvalue⟩ := Option.bind_eq_some_iff.mp (eq_some_of_require h)
    obtain ⟨_, rfl⟩ := ofComponents?_eq_some_iff.mp hvalue
    exact .inl rfl
  | boolean | integer | float | integerArray | floatArray =>
    obtain ⟨_, -, rfl⟩ := Option.map_eq_some_iff.mp (eq_some_of_require h)
    exact .inl rfl

/-- The items of a list of strings that was read are fields. -/
theorem isField_of_parse {items : List String} (h : parse type text = .ok (stringArray items)) :
    ∀ item ∈ items, IsField ',' item.toList := by
  rcases type_of_parse h with htype | hstring
  · subst htype
    have hitems : Text.fields ',' text = items := stringArray.inj (Except.ok.inj h)
    intro item hitem
    obtain ⟨cs, hcs, rfl⟩ := List.mem_map.mp (hitems ▸ hitem)
    rw [String.toList_ofList]
    exact Text.isField_of_mem_fieldChars hcs
  · cases hstring

/-- The parts of a text between commas that are not blank. -/
def filledParts (text : String) : List (List Char) :=
  (Text.splitOn ',' text.toList).filter fun part => !part.all isBlank

/-- A part of a list, apart from the blanks around it, is the text of an item. -/
theorem readItems?_eq_some_iff {read : List Char → Option α} {items : List α} :
    readItems? read text = some items ↔
      List.Forall₂ (fun part item => read (trimWhile isBlank part) = some item)
        (filledParts text) items := by
  rw [readItems?, Text.fieldChars_eq, mapM_eq_some_iff, List.forall₂_map_left_iff]
  rfl

theorem parse_tuple_iff {shape : TupleType} : parse (.tuple shape) text = .ok v ↔
    ∃ (components : List Single) (h : components.length = shape.size),
      v = tuple shape components h ∧
      List.Forall₂ (fun part x => readSingle? (trimWhile isBlank part) = some x)
        (filledParts text) components := by
  constructor
  · intro h
    obtain ⟨components, hread, hvalue⟩ := Option.bind_eq_some_iff.mp (eq_some_of_require h)
    obtain ⟨hsize, rfl⟩ := ofComponents?_eq_some_iff.mp hvalue
    exact ⟨components, hsize, rfl, readItems?_eq_some_iff.mp hread⟩
  · rintro ⟨components, hsize, rfl, hread⟩
    simp only [parse, readItems?_eq_some_iff.mpr hread, Option.bind_some, ofComponents?,
      dif_pos hsize]

/-- A tuple is read exactly from the texts that have as many numbers as it needs. -/
theorem exists_parse_tuple_iff {shape : TupleType} :
    (∃ v, parse (.tuple shape) text = .ok v) ↔
      (filledParts text).length = shape.size ∧
      ∀ part ∈ filledParts text, ∃ x, readSingle? (trimWhile isBlank part) = some x := by
  simp only [parse_tuple_iff]
  constructor
  · rintro ⟨_, components, hsize, rfl, hread⟩
    refine ⟨hread.length_eq.trans hsize, fun part hpart => ?_⟩
    obtain ⟨x, -, hx⟩ := (exists_of_forall₂ hread).1 part hpart
    exact ⟨x, hx⟩
  · rintro ⟨hlength, hparts⟩
    obtain ⟨components, hread⟩ := exists_mapM_eq_some hparts
    have hall := mapM_eq_some_iff.mp hread
    exact ⟨_, components, hall.length_eq.symm.trans hlength, rfl, hall⟩

/-! ## Reading what was written -/

/-- A list of numbers without a NaN is read from its text. -/
theorem readItems?_plainText {items : List Single} (h : items.any Single.isNaN = false) :
    readItems? readSingle? (listText (items.map plainText)) = some items := by
  have hnumber : ∀ item ∈ items, item.isNaN = false := by
    intro item hitem
    simpa using List.any_eq_false.mp h item hitem
  exact readItems?_listText (fun item hitem => Number.readSingle?_plainText (hnumber item hitem))
    fun item hitem => isField_plainText (hnumber item hitem)

theorem readItems?_int32Text (items : List Int32) :
    readItems? readInt32? (listText (items.map int32Text)) = some items :=
  readItems?_listText (fun i _ => Number.readInt32?_int32Text i) fun i _ => isField_int32Text i

/-- A value that was read is read again from the text that is written for it, as a value of its own
type, if there is no NaN in it. A tuple is read exactly from the texts with the right number of
parts that are not blank, all of them numbers. -/
theorem parse_rereads :
    (∀ type text v, parse type text = .ok v → v.anyFloat Single.isNaN = false →
      parse v.type v.text = .ok v) ∧
    ∀ (shape : TupleType) (text : String), (∃ v, parse (.tuple shape) text = .ok v) ↔
      (filledParts text).length = (ValueType.tuple shape).components ∧
      ∀ part ∈ filledParts text, ∃ x, readSingle? (trimWhile isBlank part) = some x := by
  refine ⟨fun type text v h hnan => ?_, fun shape text => exists_parse_tuple_iff⟩
  cases v with
  | boolean b => cases b <;> rfl
  | integer i =>
    have hread : readInt32? (Text.trim (String.ofList (int32Text i))).toList = some i := by
      rw [Text.trim_ofList (isField_int32Text i), Number.readInt32?_int32Text]
    simp only [parse, Value.type, Value.text, hread, Option.map_some]
  | float x =>
    have hx : x.isNaN = false := by simpa [anyFloat, floats?] using hnan
    have hread : readSingle? (Text.trim (String.ofList (plainText x))).toList = some x := by
      rw [Text.trim_ofList (isField_plainText hx), Number.readSingle?_plainText hx]
    simp only [parse, Value.type, Value.text, hread, Option.map_some]
  | tuple shape components size_eq =>
    have hnumbers : components.any Single.isNaN = false := hnan
    simp only [parse, Value.type, Value.text, readItems?_plainText hnumbers, Option.bind_some,
      ofComponents?, dif_pos size_eq]
  | string text => rfl
  | filename path => rfl
  | integerArray items =>
    simp only [parse, Value.type, Value.text, readItems?_int32Text, Option.map_some]
  | floatArray items =>
    have hnumbers : items.any Single.isNaN = false := hnan
    simp only [parse, Value.type, Value.text, readItems?_plainText hnumbers, Option.map_some]
  | stringArray items =>
    simp only [parse, Value.type, Value.text, fields_listText (isField_of_parse h)]

/-- A list with blank parts, a negative zero and an infinity, which is written in another way. -/
theorem parse_rereads_floats :
    ∃ v, parse .floatArray " 1.50 ,, -0,INF , " = .ok v ∧ v.anyFloat Single.isNaN = false ∧
      v.text = "1.5, -0, inf" ∧ parse .floatArray "1.5, -0, inf" = .ok v := by
  have hitems : readItems? readSingle? " 1.50 ,, -0,INF , " =
      some [⟨0x3FC00000⟩, ⟨0x80000000⟩, .infinity] := by decide +kernel
  have hread : parse .floatArray " 1.50 ,, -0,INF , " =
      .ok (.floatArray [⟨0x3FC00000⟩, ⟨0x80000000⟩, .infinity]) := by
    simp only [parse, hitems, Option.map_some]
  have htext : (floatArray [⟨0x3FC00000⟩, ⟨0x80000000⟩, .infinity]).text = "1.5, -0, inf" := by
    decide +kernel
  have hagain := parse_rereads.1 _ _ _ hread (by decide)
  rw [htext] at hagain
  exact ⟨_, hread, by decide, htext, hagain⟩

end Value

end MaterialViewer
