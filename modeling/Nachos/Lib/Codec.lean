import Mathlib.Data.List.Basic

/-! Records of a fixed size: how they are laid out in cells, and that they can be read back. -/

universe u v w x

/-- A layout of values in a fixed number of cells, from which they can be read back. -/
structure Codec (β : Type u) (α : Type v) where
  size : Nat
  encode : α → List β
  decode : List β → α
  length_encode : ∀ value, (encode value).length = size
  decode_encode : ∀ value, decode (encode value) = value

attribute [simp] Codec.length_encode Codec.decode_encode

namespace Codec

variable {β : Type u} {α : Type v} {γ : Type w} {δ : Type x}

/-- A value that is a cell itself. -/
def cell (β : Type u) [Inhabited β] : Codec β β where
  size := 1
  encode value := [value]
  decode cells := cells.headD default
  length_encode _ := rfl
  decode_encode _ := rfl

/-- One value behind the other. -/
def pair (first : Codec β α) (second : Codec β γ) : Codec β (α × γ) where
  size := first.size + second.size
  encode value := first.encode value.1 ++ second.encode value.2
  decode cells := (first.decode (cells.take first.size), second.decode (cells.drop first.size))
  length_encode value := by simp
  decode_encode value := by
    rw [List.take_left' (first.length_encode _), List.drop_left' (first.length_encode _)]
    simp

/-- The same cells, read as values of another type. -/
def through (codec : Codec β α) (wrap : α → δ) (unwrap : δ → α)
    (inverse : ∀ value, wrap (unwrap value) = value) : Codec β δ where
  size := codec.size
  encode value := codec.encode (unwrap value)
  decode cells := wrap (codec.decode cells)
  length_encode value := codec.length_encode _
  decode_encode value := by rw [codec.decode_encode, inverse]

/-- The cells of the value at a place of an array. -/
theorem drop_take_flatMap (codec : Codec β α) {values : List α} :
    ∀ {index : Nat} {value : α}, values[index]? = some value →
      ((values.flatMap codec.encode).drop (index * codec.size)).take codec.size =
        codec.encode value := by
  -- Each step skips the cells of one value.
  induction values with
  | nil => simp
  | cons first rest ih =>
    intro index value found
    cases index with
    | zero =>
      have same : first = value := by simpa using found
      rw [Nat.zero_mul, List.drop_zero, List.flatMap_cons, same,
        List.take_left' (codec.length_encode value)]
    | succ index =>
      rw [List.flatMap_cons, Nat.succ_mul, Nat.add_comm, ← List.drop_drop,
        List.drop_left' (codec.length_encode first)]
      exact ih (by simpa using found)

/-- An array takes as many cells as its values together. -/
theorem length_flatMap_encode (codec : Codec β α) (values : List α) :
    (values.flatMap codec.encode).length = values.length * codec.size := by
  induction values with
  | nil => simp
  | cons first rest ih =>
    rw [List.flatMap_cons, List.length_append, ih, codec.length_encode, List.length_cons,
      Nat.succ_mul, Nat.add_comm]

/-- An array of so many values. -/
def array (codec : Codec β α) (count : Nat) : Codec β { values : List α // values.length = count } where
  size := count * codec.size
  encode values := values.1.flatMap codec.encode
  decode cells := ⟨(List.range count).map fun index =>
    codec.decode ((cells.drop (index * codec.size)).take codec.size), by simp⟩
  length_encode values := by rw [length_flatMap_encode, values.2]
  decode_encode := by
    rintro ⟨values, rfl⟩
    apply Subtype.ext
    -- The values are compared place by place.
    refine List.ext_getElem (by simp) ?_
    intro index inside inside'
    rw [List.getElem_map, List.getElem_range,
      codec.drop_take_flatMap (List.getElem?_eq_getElem inside'), codec.decode_encode]

/-- An array of the right length is read back from its cells. -/
theorem decode_array (codec : Codec β α) {values : List α} {count : Nat}
    (length : values.length = count) :
    ((codec.array count).decode (values.flatMap codec.encode)).1 = values := by
  subst length
  exact congrArg Subtype.val ((codec.array values.length).decode_encode ⟨values, rfl⟩)

end Codec
