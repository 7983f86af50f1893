import CellC.Proofs.Output.Lines
import CellC.Proofs.Typing.Layers

/-!
# Texts of types

The text of a type is written from the inside to the outside: a star after the text of the type
that is pointed to, a length in brackets after the text of the elements. Read from its end, a text
says what the outermost layer is and what text is below it, so no two structures have one text. In a
table that grows by interning layers over types that it has handed out, no two numbers have one
structure, so there a text belongs to one number.

## Main definitions

* `TypeTable.TextIs`: the text that is written layer by layer

## Main results

* `CType.text_injective`: a text belongs to one structure
* `TypeTable.Descends.textIs_iff`: what is written layer by layer is the text
* `types_render_apart`: texts in a table that grows by interning
-/

namespace CellC

/-- A number can be read back from its digits. -/
theorem toDigits_injective {m n : Nat} (same : Nat.toDigits 10 m = Nat.toDigits 10 n) :
    m = n := by
  have readBack := congrArg (Nat.ofDigitChars 10 · 0) same
  simpa only [Nat.ofDigitChars_ten_toDigits] using readBack

namespace CType

/-- The character with which the text of a type ends. -/
def lastChar : CType → Char
  | int => 't'
  | char => 'r'
  | void => 'd'
  | pointer _ => '*'
  | array _ _ => ']'

theorem text_array (elem : CType) (len : UInt64) :
    (array elem len).text = elem.text ++ "[" ++ toString len.toNat ++ "]" := rfl

theorem toList_text_pointer (pointee : CType) :
    (pointer pointee).text.toList = pointee.text.toList ++ ['*'] := by
  simp [text]

theorem toList_text_array (elem : CType) (len : UInt64) :
    (array elem len).text.toList =
      elem.text.toList ++ ('[' :: Nat.toDigits 10 len.toNat ++ [']']) := by
  simp [text_array, Nat.toString_eq_repr, Nat.toList_repr]

theorem getLast?_toList_text (type : CType) : type.text.toList.getLast? = some type.lastChar := by
  cases type with
  | int | char | void => decide
  | pointer pointee => simp [toList_text_pointer, lastChar]
  | array elem len => rw [toList_text_array, ← List.append_assoc, List.getLast?_concat, lastChar]

theorem lastChar_eq {a b : CType} (same : a.text = b.text) : a.lastChar = b.lastChar := by
  apply Option.some.inj
  rw [← getLast?_toList_text, ← getLast?_toList_text, same]

theorem pointer_text_inj {a b : CType} (same : (pointer a).text = (pointer b).text) :
    a.text = b.text := by
  have chars := congrArg String.toList same
  rw [toList_text_pointer, toList_text_pointer] at chars
  exact String.toList_inj.mp (List.append_cancel_right chars)

/-- No digit is a bracket, so the last opening bracket is the one before the length. -/
theorem array_text_inj {a b : CType} {len len' : UInt64}
    (same : (array a len).text = (array b len').text) : a.text = b.text ∧ len = len' := by
  have chars := congrArg (fun text => text.toList.reverse) same
  simp only [toList_text_array, List.reverse_append, List.reverse_cons, List.reverse_nil,
    List.nil_append, List.append_assoc, List.cons_append] at chars
  have free (n : Nat) : '[' ∉ (Nat.toDigits 10 n).reverse := by
    intro bracket
    have digit := Nat.isDigit_of_mem_toDigits (by decide) (by decide) (List.mem_reverse.mp bracket)
    exact absurd digit (by decide)
  obtain ⟨digits, below⟩ := append_feed_inj (free _) (free _) (List.cons.inj chars).2
  refine ⟨String.toList_inj.mp (List.reverse_injective below), ?_⟩
  exact UInt64.toNat_inj.mp (toDigits_injective (List.reverse_injective digits))

/-- A text belongs to one structure. -/
theorem text_injective {a b : CType} (same : a.text = b.text) : a = b := by
  have ends := lastChar_eq same
  induction a generalizing b with
  | int | char | void =>
    cases b with
    | int | char | void => first | rfl | exact absurd ends (by decide)
    | pointer | array => exact absurd ends (by simp [lastChar])
  | pointer pointee ih =>
    cases b with
    | pointer pointee' =>
      have below := pointer_text_inj same
      rw [ih below (lastChar_eq below)]
    | int | char | void | array => exact absurd ends (by simp [lastChar])
  | array elem len ih =>
    cases b with
    | array elem' len' =>
      obtain ⟨below, rfl⟩ := array_text_inj same
      rw [ih below (lastChar_eq below)]
    | int | char | void | pointer => exact absurd ends (by simp [lastChar])

end CType

namespace TypeTable

/-- The text that is written layer by layer, from the inside to the outside. -/
inductive TextIs (table : TypeTable) : TypeId → String → Prop
  | int {type} : table.layer type = .int → TextIs table type "int"
  | char {type} : table.layer type = .char → TextIs table type "char"
  | void {type} : table.layer type = .void → TextIs table type "void"
  | pointer {type pointee text} : table.layer type = .pointer pointee →
      TextIs table pointee text → TextIs table type (text ++ "*")
  | array {type elem len text} : table.layer type = .array elem len →
      TextIs table elem text → TextIs table type (text ++ "[" ++ toString len.toNat ++ "]")

variable {table : TypeTable} {type : TypeId}

/-- Only the text of the structure is written. -/
theorem TextIs.eq (descends : table.Descends) {text : String} (h : table.TextIs type text) :
    text = table.text type := by
  unfold TypeTable.text
  induction h with
  | int layer | char layer | void layer =>
    rw [descends.resolve_eq, layer]
    rfl
  | pointer layer _ ih | array layer _ ih =>
    rw [descends.resolve_eq, layer, ih]
    rfl

/-- Every layer is over a type with a smaller number, so the writing comes to an end. -/
theorem Descends.textIs (descends : table.Descends) (type : TypeId) :
    ∃ text, table.TextIs type text := by
  induction number : type.index using Nat.strongRecOn generalizing type with
  | ind index ih =>
    cases layer : table.layer type with
    | int => exact ⟨_, .int layer⟩
    | char => exact ⟨_, .char layer⟩
    | void => exact ⟨_, .void layer⟩
    | pointer pointee =>
      have smaller := (descends.below (congrArg TypeLayer.element? layer)).1
      obtain ⟨text, below⟩ := ih pointee.index (number ▸ smaller) pointee rfl
      exact ⟨_, .pointer layer below⟩
    | array elem len =>
      have smaller := (descends.below (congrArg TypeLayer.element? layer)).1
      obtain ⟨text, below⟩ := ih elem.index (number ▸ smaller) elem rfl
      exact ⟨_, .array layer below⟩

/-- What is written layer by layer is the text. -/
theorem Descends.textIs_iff (descends : table.Descends) {text : String} :
    table.TextIs type text ↔ text = table.text type := by
  constructor
  · exact TextIs.eq descends
  · rintro rfl
    obtain ⟨text, written⟩ := descends.textIs type
    rwa [written.eq descends] at written

end TypeTable

/-- **Rendered types are unambiguous.** Let a table grow from the one with `int`, `char` and `void`
by interning layers over types that have been handed out. Then writing the text of a type comes to
an end with one text at every number, and two numbers that have been handed out have the same text
only if they are the same number. -/
theorem types_render_apart {table : TypeTable} (grown : TypeTable.GrowsTo {} table) :
    (∀ type text, table.TextIs type text ↔ text = table.text type) ∧
    ∀ a b, table.Has a → table.Has b → (table.text a = table.text b ↔ a = b) := by
  have descends := grown.descends TypeTable.descends_empty
  have distinct := grown.distinct TypeTable.distinct_empty
  refine ⟨fun _ _ => descends.textIs_iff, ?_⟩
  intro a b has has'
  constructor
  · intro same
    exact descends.resolve_inj distinct has has' (CType.text_injective same)
  · rintro rfl
    rfl

/-- A table in which pointers are in arrays and arrays are pointed to, and in which the digits of
two lengths stand in the same order. -/
def alikeTypes : TypeTable :=
  TypeTable.internAll {}
    [.pointer .char, .array ⟨3⟩ 4, .array .char 4, .pointer ⟨5⟩, .array .int 1, .array ⟨7⟩ 12,
      .array .int 11, .array ⟨9⟩ 2, .array .char 4]

/-- A type that is interned again gets no second number, and no two numbers share a text. -/
theorem types_render_apart_alikeTypes :
    TypeTable.GrowsTo {} alikeTypes ∧ alikeTypes.layers.size = 11 ∧
      alikeTypes.TextIs ⟨4⟩ "char*[4]" ∧ alikeTypes.TextIs ⟨6⟩ "char[4]*" ∧
      alikeTypes.TextIs ⟨8⟩ "int[1][12]" ∧ alikeTypes.TextIs ⟨10⟩ "int[11][2]" ∧
      alikeTypes.text ⟨8⟩ ≠ alikeTypes.text ⟨10⟩ := by
  have grown : TypeTable.GrowsTo {} alikeTypes := .internAll (by decide +kernel)
  obtain ⟨written, apart⟩ := types_render_apart grown
  refine ⟨grown, by decide +kernel, ?_, ?_, ?_, ?_, ?_⟩
  · exact (written _ _).mpr (by decide +kernel)
  · exact (written _ _).mpr (by decide +kernel)
  · exact (written _ _).mpr (by decide +kernel)
  · exact (written _ _).mpr (by decide +kernel)
  · exact mt (apart _ _ (by decide +kernel) (by decide +kernel)).mp (by decide)

end CellC
