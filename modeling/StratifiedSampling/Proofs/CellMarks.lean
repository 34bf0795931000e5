import StratifiedSampling.Proofs.ColumnStorage

/-! Columns by what stands in their rows: a datum, and whether it is marked as NULL. A bitmap with
no bit set past its end is its list of bits and a number of words, so columns that were put together
in different ways are one and the same if the same stands in their rows and their words are as many. -/

namespace StratifiedSampling

namespace NullBitmap

variable {bitmap other : NullBitmap}

def bits (bitmap : NullBitmap) : List Bool :=
  (List.range bitmap.length).map bitmap.isNull

theorem length_bits (bitmap : NullBitmap) : bitmap.bits.length = bitmap.length := by
  simp [bits]

/-- Rows past the last bit count as NULL. -/
theorem isNull_eq_bits (bitmap : NullBitmap) (index : Nat) : bitmap.isNull index = (bitmap.bits[index]?).getD true := by
  unfold bits
  by_cases inside : index < bitmap.length
  · simp [inside]
  · simp [inside, isNull, Nat.le_of_not_lt inside]

theorem append_eq_foldl (bitmap other : NullBitmap) : bitmap.append other = other.bits.foldl push bitmap :=
  List.foldl_map.symm

theorem Clean.bits_push (clean : bitmap.Clean) (flag : Bool) : (bitmap.push flag).bits = bitmap.bits ++ [flag] := by
  have length : (bitmap.push flag).length = bitmap.length + 1 := rfl
  unfold bits
  rw [length, List.range_succ, List.map_append, List.map_singleton, clean.isNull_push, if_pos rfl]
  congr 1
  refine List.map_congr_left fun index member => ?_
  rw [clean.isNull_push, if_neg (Nat.ne_of_lt (List.mem_range.mp member))]

/-- A bitmap after some bits have been pushed: these come last, and words are added for them as needed. -/
structure Extended (bitmap : NullBitmap) (flags : List Bool) (extended : NullBitmap) : Prop where
  clean : extended.Clean
  bits : extended.bits = bitmap.bits ++ flags
  words : extended.words.size = max bitmap.words.size ((bitmap.length + flags.length + 63) / wordSize)

theorem Clean.foldl_push (clean : bitmap.Clean) (flags : List Bool) :
    bitmap.Extended flags (flags.foldl NullBitmap.push bitmap) := by
  induction flags generalizing bitmap with
  | nil => exact ⟨clean, (List.append_nil _).symm, (Nat.max_eq_left clean.room).symm⟩
  | cons flag flags ih =>
    obtain ⟨kept, bits, words⟩ := ih (clean.push flag)
    have length : (bitmap.push flag).length = bitmap.length + 1 := rfl
    refine ⟨kept, by rw [List.foldl_cons, bits, clean.bits_push, List.append_assoc, List.singleton_append], ?_⟩
    rw [List.foldl_cons, words, clean.size_push, length, List.length_cons]
    simp only [wordSize]
    omega

theorem Clean.extended (clean : bitmap.Clean) (other : NullBitmap) : bitmap.Extended other.bits (bitmap.append other) := by
  rw [append_eq_foldl]
  exact clean.foldl_push _

theorem Extended.length {flags : List Bool} {extended : NullBitmap} (grown : bitmap.Extended flags extended) :
    extended.length = bitmap.length + flags.length := by
  rw [← length_bits, grown.bits, List.length_append, length_bits]

/-- Bitmaps are joined in any grouping, as long as the one in the middle has no bits past its end. -/
theorem Clean.append_assoc (clean : other.Clean) (bitmap rest : NullBitmap) :
    (bitmap.append other).append rest = bitmap.append (other.append rest) := by
  rw [append_eq_foldl bitmap (other.append rest), (clean.extended rest).bits, List.foldl_append, ← append_eq_foldl,
    ← append_eq_foldl]

/-- Words that were just enough are just enough for more bits. -/
theorem Tight.extended {flags : List Bool} {extended : NullBitmap} (tight : bitmap.Tight)
    (grown : bitmap.Extended flags extended) : extended.Tight where
  words := by
    rw [grown.words, grown.length, tight.words]
    simp only [wordSize]
    omega
  clear := grown.clean.clear

theorem Clean.bit_eq (clean : bitmap.Clean) (index : Nat) :
    bit bitmap.words index = if bitmap.length ≤ index then false else bitmap.isNull index := by
  unfold isNull
  split
  next beyond => exact clean.clear index beyond
  next => rfl

/-- Clean bitmaps with the same bits and as many words are the same, word for word. -/
theorem Clean.ext (clean : bitmap.Clean) (otherClean : other.Clean) (same : bitmap.bits = other.bits)
    (sized : bitmap.words.size = other.words.size) : bitmap = other := by
  have length : bitmap.length = other.length := by rw [← length_bits, same, length_bits]
  have eachBit : ∀ index, bit bitmap.words index = bit other.words index := by
    intro index
    rw [clean.bit_eq, otherClean.bit_eq, isNull_eq_bits, isNull_eq_bits, same, length]
  have words : bitmap.words = other.words := by
    refine Array.ext sized fun index inside otherInside => ?_
    refine UInt64.eq_of_toBitVec_eq (BitVec.eq_of_getLsbD_eq fun place small => ?_)
    have here := eachBit (wordSize * index + place)
    have word : (wordSize * index + place) / wordSize = index := by simp only [wordSize]; omega
    have position : (wordSize * index + place) % wordSize = place := by simp only [wordSize]; omega
    simpa [bit, word, position, Array.getD_eq_getD_getElem?, inside, otherInside] using here
  cases bitmap
  cases other
  cases words
  cases length
  rfl

end NullBitmap

namespace Cells

variable {α : Type} {cells others : Cells α}

/-- What stands in a row, and whether it is marked as NULL. -/
def mark? (cells : Cells α) (index : Nat) : Option (α × Bool) :=
  cells.data[index]?.map fun value => (value, cells.nulls.isNull index)

theorem mark?_eq_none (cells : Cells α) {index : Nat} (beyond : cells.size ≤ index) : cells.mark? index = none := by
  rw [mark?, Array.getElem?_eq_none beyond]
  rfl

/-- Cells whose bitmap is as long as the data and has no bit set past its end. -/
structure Clean (cells : Cells α) : Prop where
  clean : cells.nulls.Clean
  aligned : cells.nulls.length = cells.size

theorem Packed.clean (packed : cells.Packed) : cells.Clean :=
  ⟨packed.tight.clean, packed.aligned⟩

theorem data_eq_of_mark? (same : ∀ index, cells.mark? index = others.mark? index) : cells.data = others.data := by
  refine Array.ext_getElem? fun index => ?_
  have here := congrArg (Option.map Prod.fst) (same index)
  simpa [mark?, Function.comp_def] using here

/-- Clean cells with as many words are known by their marks. -/
theorem Clean.ext (clean : cells.Clean) (othersClean : others.Clean)
    (sized : cells.nulls.words.size = others.nulls.words.size)
    (same : ∀ index, cells.mark? index = others.mark? index) : cells = others := by
  have data := data_eq_of_mark? same
  have nulls : cells.nulls = others.nulls := by
    have length : cells.nulls.length = others.nulls.length := by
      rw [clean.aligned, othersClean.aligned, size, size, data]
    refine clean.clean.ext othersClean.clean ?_ sized
    rw [NullBitmap.bits, NullBitmap.bits, ← length]
    refine List.map_congr_left fun index member => ?_
    have inside : index < cells.data.size := by
      have aligned : cells.nulls.length = cells.data.size := clean.aligned
      exact aligned ▸ List.mem_range.mp member
    have here := same index
    rw [mark?, mark?, ← data, Array.getElem?_eq_getElem inside] at here
    simpa using here
  cases cells
  cases others
  cases data
  cases nulls
  rfl

/-- Cells without superfluous words are known by their marks. -/
theorem Packed.ext (packed : cells.Packed) (othersPacked : others.Packed)
    (same : ∀ index, cells.mark? index = others.mark? index) : cells = others := by
  refine packed.clean.ext othersPacked.clean ?_ same
  rw [packed.tight.words, othersPacked.tight.words, packed.aligned, othersPacked.aligned, size, size,
    data_eq_of_mark? same]

theorem mark?_gather {indices : List Nat} (inside : ∀ index ∈ indices, index < cells.size) (position : Nat) :
    (cells.gather indices).mark? position = indices[position]?.bind cells.mark? := by
  have taken := cells.taken_gather inside
  have datum := congrArg (·[position]?) taken.data
  simp only [List.getElem?_map, Array.getElem?_toList] at datum
  cases listed : indices[position]? with
  | none =>
    rw [listed] at datum
    have missing : (cells.gather indices).data[position]? = none := by simpa using datum
    rw [mark?, missing]
    rfl
  | some index =>
    have present : index < cells.data.size := inside index (List.mem_of_getElem? listed)
    rw [listed, Option.map_some, Array.getElem?_eq_getElem present] at datum
    have found : (cells.gather indices).data[position]? = some cells.data[index] := by simpa using datum
    rw [mark?, found, taken.isNull position index listed, Option.bind_some, mark?, Array.getElem?_eq_getElem present,
      Option.map_some]

theorem Clean.mark?_push (clean : cells.Clean) (value : α) (flag : Bool) (index : Nat) :
    (⟨cells.data.push value, cells.nulls.push flag⟩ : Cells α).mark? index =
      if index = cells.size then some (value, flag) else cells.mark? index := by
  have data : (cells.data.push value)[index]? = if index = cells.size then some value else cells.data[index]? :=
    Array.getElem?_push
  unfold mark?
  rw [clean.clean.isNull_push, clean.aligned, data]
  split <;> rfl

theorem Clean.mark?_append (clean : cells.Clean) (others : Cells α) (index : Nat) :
    (cells.append others).mark? index =
      if index < cells.size then cells.mark? index else others.mark? (index - cells.size) := by
  have bits : (cells.append others).nulls.isNull index =
      if index < cells.size then cells.nulls.isNull index else others.nulls.isNull (index - cells.size) := by
    have length : cells.nulls.bits.length = cells.size := (NullBitmap.length_bits _).trans clean.aligned
    rw [append, NullBitmap.isNull_eq_bits, (clean.clean.extended _).bits, List.getElem?_append, length]
    split <;> rw [NullBitmap.isNull_eq_bits]
  have data : (cells.append others).data[index]? =
      if index < cells.size then cells.data[index]? else others.data[index - cells.size]? :=
    Array.getElem?_append
  unfold mark?
  rw [bits, data]
  split <;> rfl

theorem size_append (cells others : Cells α) : (cells.append others).size = cells.size + others.size :=
  Array.size_append

theorem Clean.aligned_append (clean : cells.Clean) (aligned : others.nulls.length = others.size) :
    (cells.append others).nulls.length = (cells.append others).size := by
  rw [size_append, ← clean.aligned, ← aligned, ← others.nulls.length_bits]
  exact (clean.clean.extended _).length

/-- Of what is appended only the rows count, whatever its bitmap holds past the end. -/
theorem Packed.append (packed : cells.Packed) (aligned : others.nulls.length = others.size) :
    (cells.append others).Packed :=
  ⟨packed.tight.extended (packed.clean.clean.extended _), packed.clean.aligned_append aligned⟩

section Gather
variable {indices more : List Nat}

theorem append_gather (inside : ∀ index ∈ indices, index < cells.size) (moreInside : ∀ index ∈ more, index < cells.size) :
    (cells.gather indices).append (cells.gather more) = cells.gather (indices ++ more) := by
  have both : ∀ index ∈ indices ++ more, index < cells.size := fun index member =>
    (List.mem_append.mp member).elim (inside index) (moreInside index)
  refine ((packed_gather inside).append (packed_gather moreInside).aligned).ext (packed_gather both) fun position => ?_
  rw [(packed_gather inside).clean.mark?_append, mark?_gather inside, mark?_gather moreInside, mark?_gather both,
    size_gather inside, List.getElem?_append]
  split <;> rfl

/-- Rows gathered from gathered rows are the rows that these were gathered from. -/
theorem gather_gather (inside : ∀ index ∈ indices, index < cells.size) {positions : List Nat}
    (within : ∀ position ∈ positions, position < indices.length) :
    (cells.gather indices).gather positions = cells.gather (positions.filterMap fun position => indices[position]?) := by
  have here : ∀ position ∈ positions, position < (cells.gather indices).size := by
    rw [size_gather inside]
    exact within
  have there : ∀ index ∈ positions.filterMap (fun position => indices[position]?), index < cells.size := by
    intro index member
    obtain ⟨position, -, listed⟩ := List.mem_filterMap.mp member
    exact inside index (List.mem_of_getElem? listed)
  refine (packed_gather here).ext (packed_gather there) fun place => ?_
  rw [mark?_gather here, mark?_gather there, getElem?_filterMap_of_isSome (by simpa using within), Option.bind_assoc]
  exact congrArg _ (funext fun position => mark?_gather inside position)

theorem Packed.gather_range (packed : cells.Packed) : cells.gather (List.range cells.size) = cells := by
  have inside : ∀ index ∈ List.range cells.size, index < cells.size := fun index => List.mem_range.mp
  refine (packed_gather inside).ext packed fun position => ?_
  rw [mark?_gather inside]
  by_cases present : position < cells.size
  · rw [List.getElem?_range present]
    rfl
  · rw [List.getElem?_eq_none (by simpa using present), mark?_eq_none cells (Nat.le_of_not_lt present)]
    rfl

end Gather

theorem append_assoc (clean : others.nulls.Clean) (cells rest : Cells α) :
    (cells.append others).append rest = cells.append (others.append rest) := by
  unfold append
  rw [Array.append_assoc, clean.append_assoc]

end Cells

namespace Column

variable {column other joined : Column}

theorem dataType_append (made : column.append other = .ok joined) :
    column.dataType = other.dataType ∧ joined.dataType = column.dataType := by
  cases column <;> cases other <;> cases made <;> exact ⟨rfl, rfl⟩

theorem exists_append (sameType : column.dataType = other.dataType) : ∃ joined, column.append other = .ok joined := by
  cases column <;> cases other <;> first | exact ⟨_, rfl⟩ | cases sameType

theorem size_append (made : column.append other = .ok joined) : joined.size = column.size + other.size := by
  cases column <;> cases other <;> cases made <;> exact Cells.size_append _ _

/-- A column whose bitmap is as long as the data and has no bit set past its end. -/
def Clean (column : Column) : Prop :=
  column.measure fun cells => cells.Clean

theorem Packed.clean (packed : column.Packed) : column.Clean := by
  cases column <;> exact Cells.Packed.clean packed

theorem Packed.append (packed : column.Packed) (aligned : other.nulls.length = other.size)
    (made : column.append other = .ok joined) : joined.Packed := by
  cases column <;> cases other <;> cases made <;> exact Cells.Packed.append packed aligned

section Grouping
variable {rest tail whole : Column}

theorem append_append (clean : other.nulls.Clean) (made : column.append other = .ok joined)
    (continued : other.append rest = .ok tail) : joined.append rest = column.append tail := by
  cases column <;> cases other <;> cases made <;> cases rest <;> cases continued <;>
    simp only [Column.append, Cells.append_assoc clean]

/-- Columns that are joined from the front can be joined from the back. -/
theorem append_from_back (clean : other.nulls.Clean) (first : column.append other = .ok joined)
    (second : joined.append rest = .ok whole) : ∃ tail, other.append rest = .ok tail ∧ column.append tail = .ok whole := by
  obtain ⟨sameType, kept⟩ := dataType_append first
  obtain ⟨tail, made⟩ := exists_append (sameType.symm.trans (kept.symm.trans (dataType_append second).1))
  exact ⟨tail, made, (append_append clean first made).symm.trans second⟩

theorem append_from_front (clean : other.nulls.Clean) (first : other.append rest = .ok tail)
    (second : column.append tail = .ok whole) :
    ∃ joined, column.append other = .ok joined ∧ joined.append rest = .ok whole := by
  obtain ⟨joined, made⟩ := exists_append ((dataType_append second).1.trans (dataType_append first).2)
  exact ⟨joined, made, (append_append clean made first).trans second⟩

end Grouping

section Gather
variable {indices more : List Nat}

theorem append_picked (inside : ∀ index ∈ indices, index < column.size) (moreInside : ∀ index ∈ more, index < column.size) :
    (column.picked indices).append (column.picked more) = .ok (column.picked (indices ++ more)) := by
  cases column <;> simp only [picked, transform, append, Cells.append_gather inside moreInside]

theorem picked_picked (inside : ∀ index ∈ indices, index < column.size) {positions : List Nat}
    (within : ∀ position ∈ positions, position < indices.length) :
    (column.picked indices).picked positions = column.picked (positions.filterMap fun position => indices[position]?) := by
  cases column <;> simp only [picked, transform, Cells.gather_gather inside within]

theorem Packed.picked_range (packed : column.Packed) : column.picked (List.range column.size) = column := by
  cases column <;> exact congrArg _ (Cells.Packed.gather_range packed)

end Gather

end Column

end StratifiedSampling
