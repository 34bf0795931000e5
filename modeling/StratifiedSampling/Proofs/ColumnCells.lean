import StratifiedSampling.Column
import StratifiedSampling.Proofs.Traversals
import StratifiedSampling.Relation.RandomColumn

/-! Cells of a gathered column. Each is the cell of the row it was taken from, NULL where
that was NULL. -/

namespace StratifiedSampling

namespace NullBitmap

/-- Words that are just enough for the rows, with no bit set past the end. -/
structure Tight (bitmap : NullBitmap) : Prop where
  words : bitmap.words.size = (bitmap.length + 63) / wordSize
  clear : ∀ index, bitmap.length ≤ index → bit bitmap.words index = false

theorem bit_setBit (words : Array UInt64) {index : Nat} (inside : index / wordSize < words.size) (other : Nat) :
    bit (setBit words index) other = (bit words other || other == index) := by
  have place : (other == index) =
      (decide (index / wordSize = other / wordSize) && decide (index % wordSize = other % wordSize)) := by
    rw [Bool.eq_iff_iff, Bool.and_eq_true, decide_eq_true_iff, decide_eq_true_iff, beq_iff_eq]
    unfold wordSize
    omega
  have small : index % wordSize < 64 := Nat.mod_lt _ (by decide)
  rw [place]
  unfold bit setBit
  rw [Array.getD_eq_getD_getElem?, Array.getD_eq_getD_getElem?, Array.getElem?_modify]
  by_cases word : index / wordSize = other / wordSize
  · simp only [← word, if_true, Array.getElem?_eq_getElem inside, Option.map_some, Option.getD_some,
      BitVec.getLsbD_or, BitVec.getLsbD_twoPow, small, decide_true, Bool.true_and]
  · simp only [word, if_false, decide_false, Bool.false_and, Bool.or_false]

theorem bit_push_zero (words : Array UInt64) (index : Nat) : bit (words.push 0) index = bit words index := by
  unfold bit
  rw [Array.getD_eq_getD_getElem?, Array.getD_eq_getD_getElem?, Array.getElem?_push]
  split
  next last => simp [last]
  next => rfl

theorem Tight.empty : Tight empty where
  words := by decide
  clear := by simp [bit, NullBitmap.empty]

/-- Words that are enough for the rows, with no bit set past the end. -/
structure Clean (bitmap : NullBitmap) : Prop where
  room : (bitmap.length + 63) / wordSize ≤ bitmap.words.size
  clear : ∀ index, bitmap.length ≤ index → bit bitmap.words index = false

theorem Tight.clean {bitmap : NullBitmap} (tight : bitmap.Tight) : bitmap.Clean :=
  ⟨Nat.le_of_eq tight.words.symm, tight.clear⟩

theorem Clean.push_eq {bitmap : NullBitmap} (clean : bitmap.Clean) (isNull : Bool) :
    ∃ words, bitmap.push isNull = ⟨if isNull then setBit words bitmap.length else words, bitmap.length + 1⟩ ∧
      bitmap.length / wordSize < words.size ∧
      words.size = max bitmap.words.size ((bitmap.length + 1 + 63) / wordSize) ∧
      ∀ index, bit words index = bit bitmap.words index := by
  have room := clean.room
  unfold push
  by_cases full : bitmap.length / wordSize < bitmap.words.size
  · refine ⟨bitmap.words, by rw [if_pos full], full, ?_, fun _ => rfl⟩
    simp only [wordSize] at *
    omega
  · refine ⟨bitmap.words.push 0, by rw [if_neg full], ?_, ?_, bit_push_zero _⟩ <;>
      simp only [wordSize, Array.size_push] at * <;> omega

theorem Clean.bit_push {bitmap : NullBitmap} (clean : bitmap.Clean) (isNull : Bool) (index : Nat) :
    bit (bitmap.push isNull).words index = (bit bitmap.words index || (isNull && index == bitmap.length)) := by
  obtain ⟨words, pushed, room, -, bits⟩ := clean.push_eq isNull
  rw [pushed, ← bits]
  cases isNull with
  | false => simp
  | true => exact bit_setBit words room index

theorem Clean.size_push {bitmap : NullBitmap} (clean : bitmap.Clean) (isNull : Bool) :
    (bitmap.push isNull).words.size = max bitmap.words.size ((bitmap.length + 1 + 63) / wordSize) := by
  obtain ⟨words, pushed, -, enough, -⟩ := clean.push_eq isNull
  rw [pushed, ← enough]
  cases isNull with
  | false => rfl
  | true => simp [setBit]

theorem Clean.push {bitmap : NullBitmap} (clean : bitmap.Clean) (isNull : Bool) : (bitmap.push isNull).Clean where
  room := by
    rw [clean.size_push]
    exact Nat.le_max_right _ _
  clear := by
    intro index beyond
    have past : bitmap.length + 1 ≤ index := beyond
    rw [clean.bit_push, clean.clear index (by omega)]
    simp only [Bool.false_or, Bool.and_eq_false_iff, beq_eq_false_iff_ne]
    right
    omega

theorem Clean.isNull_push {bitmap : NullBitmap} (clean : bitmap.Clean) (flag : Bool) (index : Nat) :
    (bitmap.push flag).isNull index = if index = bitmap.length then flag else bitmap.isNull index := by
  have length : (bitmap.push flag).length = bitmap.length + 1 := rfl
  unfold isNull
  rw [length, clean.bit_push]
  split
  next beyond =>
    rw [if_neg (by omega), if_pos (by omega)]
  next inside =>
    by_cases last : index = bitmap.length
    · simp [last, clean.clear]
    · rw [if_neg last, if_neg (by omega)]
      simp [last]

theorem Tight.push {bitmap : NullBitmap} (tight : bitmap.Tight) (isNull : Bool) : (bitmap.push isNull).Tight where
  words := by
    have length : (bitmap.push isNull).length = bitmap.length + 1 := rfl
    rw [tight.clean.size_push, tight.words, length]
    simp only [wordSize]
    omega
  clear := (tight.clean.push isNull).clear

theorem bit_valid (length index : Nat) : bit (valid length).words index = false := by
  unfold bit valid
  rw [Array.getD_eq_getD_getElem?, Array.getElem?_replicate]
  split <;> simp

theorem isNull_valid {length index : Nat} (inside : index < length) : (valid length).isNull index = false := by
  rw [isNull, if_neg (by simp [valid, inside]), bit_valid]

end NullBitmap

namespace Cells

variable {α : Type}

/-- Cells that have been taken from some rows of others, one after the other. -/
structure Taken (cells : Cells α) (indices : List Nat) (chosen : Cells α) : Prop where
  tight : chosen.nulls.Tight
  nulls : chosen.nulls.length = indices.length
  data : chosen.data.toList.map some = indices.map (cells.data[·]?)
  isNull : ∀ position index, indices[position]? = some index →
    chosen.nulls.isNull position = cells.nulls.isNull index

theorem Taken.empty (cells : Cells α) : cells.Taken [] empty :=
  ⟨.empty, rfl, rfl, by simp⟩

theorem Taken.pushRow {cells chosen : Cells α} {indices : List Nat} {last : Nat} (taken : cells.Taken indices chosen)
    (inside : last < cells.size) : cells.Taken (indices ++ [last]) (chosen.pushRow cells last) := by
  have found : cells.data[last]? = some cells.data[last] := Array.getElem?_eq_getElem inside
  rw [Cells.pushRow, found]
  refine ⟨taken.tight.push _, by simp [NullBitmap.push, taken.nulls], by simp [taken.data, found], ?_⟩
  intro position index listed
  rw [taken.tight.clean.isNull_push, taken.nulls]
  rcases Nat.lt_trichotomy position indices.length with before | rfl | beyond
  · rw [List.getElem?_append_left before] at listed
    rw [if_neg (by omega), taken.isNull position index listed]
  · rw [List.getElem?_concat_length, Option.some.injEq] at listed
    rw [if_pos rfl, listed]
  · rw [List.getElem?_eq_none (by simp; omega)] at listed
    cases listed

theorem taken_gather (cells : Cells α) {indices : List Nat} (inside : ∀ index ∈ indices, index < cells.size) :
    cells.Taken indices (cells.gather indices) := by
  have run : ∀ rest done chosen, cells.Taken done chosen → (∀ index ∈ rest, index < cells.size) →
      cells.Taken (done ++ rest) (rest.foldl (fun chosen index => chosen.pushRow cells index) chosen) := by
    intro rest
    induction rest with
    | nil =>
      intro done chosen taken _
      simpa using taken
    | cons next rest ih =>
      intro done chosen taken inside
      have pushed := taken.pushRow (inside next List.mem_cons_self)
      have whole := ih (done ++ [next]) _ pushed fun index member => inside index (List.mem_cons_of_mem _ member)
      simpa using whole
  exact run indices [] empty (.empty cells) inside

theorem size_gather {cells : Cells α} {indices : List Nat} (inside : ∀ index ∈ indices, index < cells.size) :
    (cells.gather indices).size = indices.length := by
  have lengths := congrArg List.length (cells.taken_gather inside).data
  simpa [size] using lengths

theorem cell?_gather {cells : Cells α} {indices : List Nat} (inside : ∀ index ∈ indices, index < cells.size)
    {position index : Nat} (listed : indices[position]? = some index) :
    (cells.gather indices).cell? position = cells.cell? index := by
  have taken := cells.taken_gather inside
  have datum := congrArg (·[position]?) taken.data
  simp only [List.getElem?_map, listed, Option.map_some, Array.getElem?_toList] at datum
  unfold cell?
  rw [taken.isNull position index listed]
  split
  · rfl
  · cases here : (cells.gather indices).data[position]? with
    | none => simp [here] at datum
    | some value => simpa [here] using datum

theorem cell?_present {data : List α} {index : Nat} {value : α} (listed : data[index]? = some value) :
    (Table.present data).cell? index = some value := by
  obtain ⟨inside, -⟩ := List.getElem?_eq_some_iff.mp listed
  simp [cell?, Table.present, NullBitmap.isNull_valid inside, listed]

end Cells

namespace Column

/-- The rows of a column at some positions, in that order. -/
def picked (column : Column) (indices : List Nat) : Column :=
  column.transform fun cells => cells.gather indices

theorem gather_eq {column : Column} {indices : List Nat} (inside : ∀ index ∈ indices, index < column.size) :
    column.gather indices = .ok (column.picked indices) := by
  unfold gather picked
  cases indices with
  | nil => rfl
  | cons index rest =>
    have positive : 0 < column.size := Nat.lt_of_le_of_lt (Nat.zero_le _) (inside index List.mem_cons_self)
    have bounded := foldl_max_lt positive inside
    dsimp only
    rw [List.isEmpty_cons, Bool.false_or, decide_eq_true bounded, if_pos rfl]

theorem size_picked {column : Column} {indices : List Nat} (inside : ∀ index ∈ indices, index < column.size) :
    (column.picked indices).size = indices.length := by
  cases column <;> exact Cells.size_gather inside

theorem value_picked {column : Column} {indices : List Nat} (inside : ∀ index ∈ indices, index < column.size)
    {position index : Nat} (listed : indices[position]? = some index) :
    (column.picked indices).value position = column.value index := by
  cases column <;> simp only [picked, transform, value] <;> rw [Cells.cell?_gather inside listed]

/-- A cell that is there is NULL exactly if the bitmap says so. -/
theorem isNull_value {column : Column} {row : Nat} (inside : row < column.size) :
    (column.value row).isNull = column.isNull row := by
  have stored : ∀ {α : Type} (wrap : α → Value) (cells : Cells α), row < cells.size →
      (∀ value, (wrap value).isNull = false) →
      (((cells.cell? row).map wrap).getD .null).isNull = cells.nulls.isNull row := by
    intro α wrap cells present solid
    have found : cells.data[row]? = some cells.data[row] := Array.getElem?_eq_getElem present
    unfold Cells.cell?
    cases cells.nulls.isNull row with
    | true => rfl
    | false =>
      rw [if_neg Bool.false_ne_true, found]
      exact solid _
  cases column <;> exact stored _ _ inside fun _ => rfl

end Column

end StratifiedSampling
