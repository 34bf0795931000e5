import StratifiedSampling.Proofs.CellMarks

/-! Bitmaps as packed lists of bits. Whatever bitmap they start from and whichever calls are made, the words
are just enough for the list of bits that the calls put together, and no bit is set past its end, so
that a bitmap is known by its list. In machine words a bit is read by a shift and a mask and set by a
shift, the last word is counted under a mask, and a word that is not there makes a call fail: as long
as there are enough words no call does, and it answers what reading bit by bit answers. -/

namespace StratifiedSampling

namespace NullBitmap

section Counting

/-- The bits of one word; where there is no word, none is set. -/
theorem onesBelow_getD (words : Array UInt64) (index : Nat) {position : Nat} (inside : position ≤ wordSize) :
    onesBelow (words.getD index 0) position =
      (List.range position).countP fun place => bit words (wordSize * index + place) := by
  refine List.countP_congr fun place member => ?_
  have small := List.mem_range.mp member
  have word : (wordSize * index + place) / wordSize = index := by simp only [wordSize] at *; omega
  have here : (wordSize * index + place) % wordSize = place := by simp only [wordSize] at *; omega
  rw [bit, word, here]

theorem onesIn_append (words more : List UInt64) : onesIn (words ++ more) = onesIn words + onesIn more := by
  induction words with
  | nil => exact (Nat.zero_add _).symm
  | cons word rest ih => rw [List.cons_append, onesIn, onesIn, ih, Nat.add_assoc]

theorem onesIn_take (words : Array UInt64) (full : Nat) :
    onesIn (words.toList.take full) = (List.range (wordSize * full)).countP (bit words) := by
  induction full with
  | zero => rfl
  | succ full ih =>
    rw [Nat.mul_succ, countP_range_add, ← ih, ← onesBelow_getD words full (Nat.le_refl _), List.take_add_one,
      onesIn_append, Array.getElem?_toList, Array.getD_eq_getD_getElem?]
    -- A word that is not there adds nothing, and all of its bits read as clear.
    cases words[full]? with
    | none => simp [onesIn, onesBelow]
    | some word => rfl

/-- Whole words and the part of the last one are all bits. -/
theorem countNull_eq (bitmap : NullBitmap) : bitmap.countNull = bitmap.bits.count true := by
  have length : wordSize * (bitmap.length / wordSize) + bitmap.length % wordSize = bitmap.length := Nat.div_add_mod _ _
  have part : bitmap.length % wordSize ≤ wordSize := Nat.le_of_lt (Nat.mod_lt _ (by decide))
  unfold countNull
  dsimp only
  rw [onesIn_take, onesBelow_getD _ _ part, ← countP_range_add, length, bits, List.count, List.countP_map]
  refine List.countP_congr fun index member => ?_
  have inside := List.mem_range.mp member
  rw [Function.comp_apply, isNull, if_neg (by omega), beq_true]

end Counting

/-- Words that are enough for the rows; bits past the end may be set. -/
def Roomy (bitmap : NullBitmap) : Prop :=
  (bitmap.length + 63) / wordSize ≤ bitmap.words.size

instance (bitmap : NullBitmap) : Decidable bitmap.Roomy :=
  inferInstanceAs (Decidable (_ ≤ _))

section Words
variable {place : Nat}

theorem toNat_amount (small : place < wordSize) : ((UInt64.ofNat place).toBitVec % 64).toNat = place := by
  unfold wordSize at small
  simp
  omega

theorem toBitVec_shifted (small : place < wordSize) :
    ((1 : UInt64) <<< UInt64.ofNat place).toBitVec = BitVec.twoPow 64 place := by
  rw [UInt64.toBitVec_shiftLeft, BitVec.shiftLeft_eq', toNat_amount small, BitVec.twoPow_eq]
  rfl

theorem shifted_bit (word : UInt64) (small : place < wordSize) :
    ((word >>> UInt64.ofNat place) &&& 1 == 1) = word.toBitVec.getLsbD place := by
  have bits : ((word >>> UInt64.ofNat place) &&& 1).toBitVec =
      BitVec.setWidth 64 (BitVec.ofBool (word.toBitVec.getLsbD place)) := by
    rw [UInt64.toBitVec_and, UInt64.toBitVec_shiftRight, BitVec.ushiftRight_eq', toNat_amount small]
    change _ &&& 1#64 = _
    rw [BitVec.and_one_eq_setWidth_ofBool_getLsbD, BitVec.getLsbD_ushiftRight, Nat.add_zero]
  rw [Bool.eq_iff_iff, beq_iff_eq, ← UInt64.toBitVec_inj, bits]
  cases word.toBitVec.getLsbD place <;> decide

theorem getLsbD_mask (small : place < wordSize) (index : Nat) :
    ((1 : UInt64) <<< UInt64.ofNat place - 1).toBitVec.getLsbD index = decide (index < place) := by
  have mask : ((1 : UInt64) <<< UInt64.ofNat place - 1).toBitVec.toNat = 2 ^ place - 1 := by
    have power : 2 ^ place < 2 ^ 64 := Nat.pow_lt_pow_right (by decide) small
    have positive : 0 < 2 ^ place := Nat.two_pow_pos place
    rw [UInt64.toBitVec_sub, toBitVec_shifted small, BitVec.toNat_sub, BitVec.toNat_twoPow]
    simp
    omega
  rw [BitVec.getLsbD, mask, Nat.testBit_two_pow_sub_one]

theorem cpopNatRec_eq_countP (word : BitVec 64) (count : Nat) :
    word.cpopNatRec count 0 = (List.range count).countP word.getLsbD := by
  induction count with
  | zero => rfl
  | succ count ih =>
    rw [BitVec.cpopNatRec_succ, BitVec.cpopNatRec_eq, ih, List.range_succ, List.countP_append, List.countP_singleton]
    cases word.getLsbD count <;> simp

theorem ones_eq (word : UInt64) : ones word = onesBelow word wordSize := by
  have few : word.toBitVec.cpopNatRec 64 0 ≤ 0 + 64 := BitVec.cpopNatRec_le 64
  rw [ones, BitVec.cpop, BitVec.toNat_ofNat, Nat.mod_eq_of_lt (by omega), cpopNatRec_eq_countP]
  rfl

/-- Under a mask only the bits of the part that is in use are counted. -/
theorem ones_masked (word : UInt64) (small : place < wordSize) :
    ones (word &&& ((1 <<< UInt64.ofNat place) - 1)) = onesBelow word place := by
  have masked : ∀ index, (word &&& ((1 <<< UInt64.ofNat place) - 1)).toBitVec.getLsbD index =
      (word.toBitVec.getLsbD index && decide (index < place)) := by
    intro index
    rw [UInt64.toBitVec_and, BitVec.getLsbD_and, getLsbD_mask small]
  have split : wordSize = place + (wordSize - place) := by omega
  have above : ((List.range (wordSize - place)).countP fun index =>
      (word &&& ((1 <<< UInt64.ofNat place) - 1)).toBitVec.getLsbD (place + index)) = 0 := by
    refine List.countP_eq_zero.mpr fun index _ => ?_
    rw [masked, decide_eq_false (by omega), Bool.and_false]
    exact Bool.false_ne_true
  rw [ones_eq, onesBelow, onesBelow, split, countP_range_add, above, Nat.add_zero]
  refine List.countP_congr fun index member => ?_
  rw [masked, decide_eq_true (List.mem_range.mp member), Bool.and_true]

theorem foldl_ones (words : List UInt64) (start : Nat) :
    words.foldl (fun count word => count + ones word) start = start + onesIn words := by
  induction words generalizing start with
  | nil => rfl
  | cons word rest ih => rw [List.foldl_cons, ih, onesIn, ones_eq, Nat.add_assoc]

end Words

section Checked
variable {bitmap other : NullBitmap}

theorem place_lt (index : Nat) : index % wordSize < wordSize :=
  Nat.mod_lt _ (by decide)

/-- Rows are in words that are there. -/
theorem Roomy.inside (roomy : bitmap.Roomy) {index : Nat} (inside : index < bitmap.length) :
    index / wordSize < bitmap.words.size := by
  unfold Roomy wordSize at *
  omega

theorem Roomy.isNull?_eq (roomy : bitmap.Roomy) (index : Nat) :
    bitmap.isNull? index = some (bitmap.isNull index) := by
  unfold NullBitmap.isNull? isNull
  split
  next => rfl
  next inside =>
    have there := roomy.inside (Nat.lt_of_not_le inside)
    rw [Array.getElem?_eq_getElem there, bit, Array.getD_eq_getD_getElem?, Array.getElem?_eq_getElem there]
    exact congrArg some (shifted_bit _ (place_lt index))

/-- Setting a bit by a shift in the word that holds it. -/
theorem setBit_eq (words : Array UInt64) {index : Nat} (there : index / wordSize < words.size) :
    setBit words index = words.setIfInBounds (index / wordSize)
      (words[index / wordSize] ||| (1 <<< UInt64.ofNat (index % wordSize))) := by
  have word : ∀ word : UInt64, (⟨word.toBitVec ||| BitVec.twoPow 64 (index % wordSize)⟩ : UInt64) =
      word ||| (1 <<< UInt64.ofNat (index % wordSize)) := by
    intro word
    rw [← UInt64.toBitVec_inj, UInt64.toBitVec_or, toBitVec_shifted (place_lt index)]
  unfold setBit
  refine Array.ext_getElem? fun position => ?_
  rw [Array.getElem?_modify, Array.getElem?_setIfInBounds]
  split
  next here =>
    subst here
    rw [Array.getElem?_eq_getElem there, Option.map_some, word]
  next => rfl

theorem Roomy.push?_eq (roomy : bitmap.Roomy) (isNull : Bool) :
    bitmap.push? isNull = some (bitmap.push isNull) := by
  have words : (if bitmap.words.size ≤ bitmap.length / wordSize then bitmap.words.push 0 else bitmap.words) =
      if bitmap.length / wordSize < bitmap.words.size then bitmap.words else bitmap.words.push 0 := by
    split <;> split <;> first | rfl | omega
  unfold NullBitmap.push? push
  dsimp only
  rw [words]
  cases isNull with
  | false => rfl
  | true =>
    have there : bitmap.length / wordSize <
        (if bitmap.length / wordSize < bitmap.words.size then bitmap.words else bitmap.words.push 0).size := by
      unfold Roomy wordSize at roomy
      split
      next full => exact full
      next => simp only [wordSize, Array.size_push]; omega
    rw [if_pos rfl, if_pos rfl, setBit_eq _ there, Array.getElem?_eq_getElem there]
    rfl

theorem Roomy.push (roomy : bitmap.Roomy) (isNull : Bool) : (bitmap.push isNull).Roomy := by
  unfold Roomy NullBitmap.push at *
  dsimp only
  have grown : (bitmap.length + 1 + 63) / wordSize ≤
      (if bitmap.length / wordSize < bitmap.words.size then bitmap.words else bitmap.words.push 0).size := by
    unfold wordSize at *
    split
    · omega
    · rw [Array.size_push]
      omega
  split
  · rwa [setBit, Array.size_modify]
  · exact grown

theorem Roomy.append?_eq (roomy : bitmap.Roomy) (otherRoomy : other.Roomy) :
    bitmap.append? other = some (bitmap.append other) := by
  unfold NullBitmap.append? append
  induction List.range other.length generalizing bitmap with
  | nil => rfl
  | cons index rest ih =>
    rw [List.foldlM_cons, List.foldl_cons, ← ih (roomy.push _), otherRoomy.isNull?_eq]
    change (bitmap.push? (other.isNull index) >>= _) = _
    rw [roomy.push?_eq]
    rfl

/-- Whatever stands past the end, only bits before it are counted. -/
theorem Roomy.countNull?_eq (roomy : bitmap.Roomy) : bitmap.countNull? = some bitmap.countNull := by
  have full : ¬bitmap.words.size < bitmap.length / wordSize := by
    unfold Roomy wordSize at *
    omega
  unfold NullBitmap.countNull? countNull
  dsimp only
  rw [if_neg full, foldl_ones, Nat.zero_add]
  split
  next used =>
    have there : bitmap.length / wordSize < bitmap.words.size := by
      unfold Roomy wordSize at *
      omega
    rw [Array.getD_eq_getD_getElem?, Array.getElem?_eq_getElem there, ← ones_masked _ (place_lt _)]
    rfl
  next unused =>
    have none : bitmap.length % wordSize = 0 := by omega
    rw [none]
    rfl

end Checked

/-- A bitmap whose words are just enough for its bits, with none set past the end, and the list of these bits. -/
structure Packs (bitmap : NullBitmap) (flags : List Bool) : Prop where
  tight : bitmap.Tight
  bits : bitmap.bits = flags

namespace Packs
variable {bitmap other : NullBitmap} {flags otherFlags : List Bool}

theorem empty : Packs empty [] :=
  ⟨.empty, rfl⟩

theorem valid (rows : Nat) : Packs (valid rows) (List.replicate rows false) where
  tight := .valid rows
  bits := by
    refine List.eq_replicate_iff.mpr ⟨length_bits _, fun flag member => ?_⟩
    obtain ⟨index, listed, rfl⟩ := List.mem_map.mp member
    exact isNull_valid (List.mem_range.mp listed)

theorem length (packs : bitmap.Packs flags) : bitmap.length = flags.length := by
  rw [← packs.bits, length_bits]

theorem roomy (packs : bitmap.Packs flags) : bitmap.Roomy :=
  packs.tight.clean.room

theorem push (packs : bitmap.Packs flags) (isNull : Bool) : (bitmap.push isNull).Packs (flags ++ [isNull]) :=
  ⟨packs.tight.push isNull, by rw [packs.tight.clean.bits_push, packs.bits]⟩

theorem append (packs : bitmap.Packs flags) (other : NullBitmap) :
    (bitmap.append other).Packs (flags ++ other.bits) where
  tight := packs.tight.extended (packs.tight.clean.extended other)
  bits := by rw [(packs.tight.clean.extended other).bits, packs.bits]

/-- A packed bitmap is known by its list. -/
theorem unique (packs : bitmap.Packs flags) (otherPacks : other.Packs otherFlags) :
    bitmap = other ↔ flags = otherFlags := by
  constructor
  · rintro rfl
    rw [← packs.bits, ← otherPacks.bits]
  · rintro rfl
    refine packs.tight.clean.ext otherPacks.tight.clean (packs.bits.trans otherPacks.bits.symm) ?_
    rw [packs.tight.words, otherPacks.tight.words, packs.length, otherPacks.length]

end Packs

end NullBitmap

/-- How a bitmap begins. -/
inductive BitmapOrigin where
  | empty
  | withCapacity (rows : Nat)
  | valid (rows : Nat)

namespace BitmapOrigin

def bitmap : BitmapOrigin → NullBitmap
  | empty => .empty
  | withCapacity rows => .withCapacity rows
  | valid rows => .valid rows

def flags : BitmapOrigin → List Bool
  | empty => []
  | withCapacity _ => []
  | valid rows => List.replicate rows false

theorem packs (origin : BitmapOrigin) : origin.bitmap.Packs origin.flags := by
  cases origin with
  | empty => exact .empty
  | withCapacity rows => exact .empty
  | valid rows => exact .valid rows

end BitmapOrigin

/-- A call that changes a bitmap. -/
inductive BitmapCall where
  | push (isNull : Bool)
  | append (other : NullBitmap)
  | clear

namespace BitmapCall

/-- A bitmap that is appended has enough words; past its end bits may be set. -/
def Roomy : BitmapCall → Prop
  | append other => other.Roomy
  | _ => True

def change (bitmap : NullBitmap) : BitmapCall → NullBitmap
  | push isNull => bitmap.push isNull
  | append other => bitmap.append other
  | clear => bitmap.clear

/-- The call in machine words, which fails where a word is missing. -/
def change? (bitmap : NullBitmap) : BitmapCall → Option NullBitmap
  | push isNull => bitmap.push? isNull
  | append other => bitmap.append? other
  | clear => some bitmap.clear

def changeList (flags : List Bool) : BitmapCall → List Bool
  | push isNull => flags ++ [isNull]
  | append other => flags ++ other.bits
  | clear => []

theorem packs_change {bitmap : NullBitmap} {flags : List Bool} (packs : bitmap.Packs flags) {call : BitmapCall}
    (roomy : call.Roomy) :
    change? bitmap call = some (change bitmap call) ∧ (change bitmap call).Packs (changeList flags call) := by
  cases call with
  | push isNull => exact ⟨packs.roomy.push?_eq isNull, packs.push isNull⟩
  | append other => exact ⟨packs.roomy.append?_eq roomy, packs.append other⟩
  | clear => exact ⟨rfl, .empty⟩

theorem packs_foldl {bitmap : NullBitmap} {flags : List Bool} (packs : bitmap.Packs flags) {calls : List BitmapCall}
    (roomy : ∀ call ∈ calls, call.Roomy) : calls.foldlM change? bitmap = some (calls.foldl change bitmap) ∧
      (calls.foldl change bitmap).Packs (calls.foldl changeList flags) := by
  induction calls generalizing bitmap flags with
  | nil => exact ⟨rfl, packs⟩
  | cons call rest ih =>
    obtain ⟨here, later⟩ := List.forall_mem_cons.mp roomy
    obtain ⟨made, changed⟩ := packs_change packs here
    obtain ⟨others, last⟩ := ih changed later
    refine ⟨?_, last⟩
    rw [List.foldlM_cons, made]
    exact others

end BitmapCall

/-- How a bitmap has been built. -/
structure BitmapHistory where
  origin : BitmapOrigin
  calls : List BitmapCall

namespace BitmapHistory

def Roomy (history : BitmapHistory) : Prop :=
  ∀ call ∈ history.calls, call.Roomy

def bitmap (history : BitmapHistory) : NullBitmap :=
  history.calls.foldl BitmapCall.change history.origin.bitmap

def bitmap? (history : BitmapHistory) : Option NullBitmap :=
  history.calls.foldlM BitmapCall.change? history.origin.bitmap

/-- The bits that have been pushed since the bitmap was last empty. -/
def flags (history : BitmapHistory) : List Bool :=
  history.calls.foldl BitmapCall.changeList history.origin.flags

theorem packs {history : BitmapHistory} (roomy : history.Roomy) :
    history.bitmap? = some history.bitmap ∧ history.bitmap.Packs history.flags :=
  BitmapCall.packs_foldl history.origin.packs roomy

end BitmapHistory

/-- A bitmap is a packed list of bits, through any calls on it. Its words are just enough and hold no
bit past the end, it reads as the list that the calls put together and as NULL past its end, and what it
counts are the bits of the list that are set; no call comes upon a missing word, unless words are missing
in a bitmap that is appended. Bitmaps are the same if their lists are, and one put after the other has the
bits of both. Of contents that were not built so only the rows are counted, whatever bits are set past
the end, as long as there are enough words. -/
theorem bitmap_is_packed_list (history : BitmapHistory) (roomy : history.Roomy) :
    let bitmap := history.bitmap
    let flags := history.flags
    bitmap.length = flags.length ∧ bitmap.words.size = (flags.length + 63) / 64 ∧
      (∀ index, flags.length ≤ index → NullBitmap.bit bitmap.words index = false) ∧
      (∀ index, bitmap.isNull index = flags[index]?.getD true) ∧ bitmap.countNull = flags.count true ∧
      history.bitmap? = some bitmap ∧ (∀ index, bitmap.isNull? index = some (bitmap.isNull index)) ∧
      bitmap.countNull? = some bitmap.countNull ∧
      (∀ other : BitmapHistory, other.Roomy → (bitmap = other.bitmap ↔ flags = other.flags) ∧
        (bitmap.append other.bitmap).bits = flags ++ other.flags) ∧
      ∀ raw : NullBitmap, raw.Roomy → (∀ index, raw.isNull? index = some (raw.isNull index)) ∧
        raw.countNull? = some raw.countNull ∧ raw.countNull = (List.range raw.length).countP raw.isNull := by
  intro bitmap flags
  obtain ⟨made, packs⟩ := history.packs roomy
  change bitmap.Packs flags at packs
  refine ⟨packs.length, ?_, ?_, fun index => ?_, ?_, made, packs.roomy.isNull?_eq, packs.roomy.countNull?_eq,
    fun other otherRoomy => ?_, fun raw rawRoomy => ⟨rawRoomy.isNull?_eq, rawRoomy.countNull?_eq, ?_⟩⟩
  · rw [packs.tight.words, packs.length]
    rfl
  · exact packs.length ▸ packs.tight.clear
  · rw [NullBitmap.isNull_eq_bits, packs.bits]
  · rw [NullBitmap.countNull_eq, packs.bits]
  · obtain ⟨-, otherPacks⟩ := other.packs otherRoomy
    exact ⟨packs.unique otherPacks, by rw [(packs.append _).bits, otherPacks.bits]⟩
  · rw [NullBitmap.countNull_eq, NullBitmap.bits, List.count, List.countP_map]
    exact List.countP_congr fun index _ => by simp

/-- Three rows in a word that has all its bits set, by themselves and after 63 rows without NULL. -/
theorem stray_bits_uncounted :
    let raw : NullBitmap := ⟨#[0xFFFFFFFFFFFFFFFF], 3⟩
    let bitmap := (NullBitmap.valid 63).append raw
    raw.Roomy ∧ raw.countNull? = some 3 ∧ bitmap.words.size = 2 ∧ bitmap.countNull = 3 := by
  intro raw bitmap
  have roomy : raw.Roomy := by decide
  have bits : raw.bits = [true, true, true] := by decide
  have built : BitmapHistory.Roomy ⟨.valid 63, [.append raw]⟩ := List.forall_mem_singleton.mpr roomy
  have flags : BitmapHistory.flags ⟨.valid 63, [.append raw]⟩ =
      List.replicate 63 false ++ [true, true, true] := congrArg (List.replicate 63 false ++ ·) bits
  obtain ⟨-, words, -, -, count, -, -, -, -, contents⟩ := bitmap_is_packed_list ⟨.valid 63, [.append raw]⟩ built
  obtain ⟨-, counted, rows⟩ := contents raw roomy
  rw [flags] at words count
  refine ⟨roomy, ?_, words, count⟩
  rw [counted, rows]
  decide

end StratifiedSampling
