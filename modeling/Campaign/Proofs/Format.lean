import Mathlib
import Campaign.Proofs.Canonical
import Campaign.Proofs.Except
import Campaign.Proofs.Matrix

/-!
# The format of blobs

Bytes are a blob exactly if they have the format of one: 16 bytes of header, and 64 bytes for each of the
rows that the header counts. The value of a row and a column then has the bits that stand at its place
(`decode_format`). A reader that would be trapped by a place behind the end of the bytes, or by a number
that 64 bits cannot hold, is never trapped (`decodeGuarded_eq`).
-/

namespace Campaign

theorem Value.toNat_bits_inj {v w : Value} : v.bits.toNat = w.bits.toNat ↔ v = w := by
  rw [UInt64.toNat_inj]
  exact ⟨fun h => congrArg Value.mk h, congrArg Value.bits⟩

theorem Sample.ext_get {s t : Sample} (h : ∀ metric, s.get metric = t.get metric) : s = t := by
  cases s
  cases t
  rw [Sample.mk.injEq]
  exact ⟨h .packets, h .retransmissions, h .lossPercent, h .fragments, h .frames, h .bytes, h .time,
    h .secondaryTime⟩

namespace Blob
variable {bytes body row : List UInt8} {m m' : Matrix} {i column count start length : Nat}

def rowsCounted (bytes : List UInt8) : Nat :=
  ofLittleEndian (slice bytes 8 4)

/-- The layout of a blob. -/
structure HasFormat (bytes : List UInt8) : Prop where
  long : 16 ≤ bytes.length
  /-- The letters `TMX1`. -/
  magic : slice bytes 0 4 = [84, 77, 88, 49]
  elementType : bytes[4]? = some 1
  reserved : slice bytes 5 3 = [0, 0, 0]
  columns : ofLittleEndian (slice bytes 12 4) = 8
  rows : 1 ≤ rowsCounted bytes
  length : bytes.length = 16 + 64 * rowsCounted bytes

/-- The matrix has the rows that the header counts, and each value the bits that stand at its place. -/
structure Holds (bytes : List UInt8) (m : Matrix) : Prop where
  rowCount : m.rowCount = rowsCounted bytes
  bits : ∀ i sample, m.rows[i]? = some sample → ∀ metric : Metric, (sample.get metric).bits.toNat
    = ofLittleEndian (slice bytes (16 + 64 * i + 8 * metric.column) 8)

/-! ### The places of values -/

theorem get_sampleOfBytes (row : List UInt8) (metric : Metric) :
    (sampleOfBytes row).get metric = valueAt row metric.column := by
  cases metric <;> rfl

theorem getElem?_rowsOfBody (h : i < count) (body : List UInt8) :
    (rowsOfBody count body)[i]? = some (sampleOfBytes (slice body (64 * i) 64)) := by
  induction count generalizing i body with
  | zero => exact absurd h (Nat.not_lt_zero i)
  | succ count ih =>
    cases i with
    | zero => rfl
    | succ i =>
      rw [rowsOfBody, List.getElem?_cons_succ, ih (Nat.lt_of_succ_lt_succ h), slice, slice, List.drop_drop,
        rowLength, Nat.mul_succ, Nat.add_comm 64]

theorem slice_slice {start' length' : Nat} (h : start' + length' ≤ length) (bytes : List UInt8) :
    slice (slice bytes start length) start' length' = slice bytes (start + start') length' := by
  rw [slice, slice, slice, List.drop_take, List.take_take, List.drop_drop, Nat.min_eq_left (by omega)]

theorem toNat_valueAt (row : List UInt8) (column : Nat) :
    (valueAt row column).bits.toNat = ofLittleEndian (slice row (8 * column) 8) := by
  have hlength : (slice row (8 * column) 8).length ≤ 8 := by rw [slice, List.length_take]; omega
  have hlt : ofLittleEndian (slice row (8 * column) 8) < 2 ^ 64 :=
    (ofLittleEndian_lt _).trans_le (Nat.pow_le_pow_right (n := 256) (by decide) hlength)
  rw [valueAt, UInt64.toNat_ofNat', Nat.mod_eq_of_lt hlt]

theorem column_lt (metric : Metric) : metric.column < 8 := by
  cases metric <;> decide

/-- What stands at the place of a value, in a row of its own or in all bytes. -/
theorem slice_row (metric : Metric) : slice (slice (bytes.drop headerLength) (64 * i) 64) (8 * metric.column) 8
    = slice bytes (16 + 64 * i + 8 * metric.column) 8 := by
  have hcolumn := column_lt metric
  rw [slice_slice (by omega), slice, slice, List.drop_drop, headerLength, Nat.add_assoc]

/-! ### Accepted bytes -/

theorem elementType_iff (h : 16 ≤ bytes.length) :
    ofLittleEndian (slice bytes 4 1) = elementType.toNat ↔ bytes[4]? = some 1 := by
  rw [slice, List.drop_eq_getElem_cons (by omega), List.getElem?_eq_getElem (by omega), Option.some_inj]
  show bytes[4].toNat + 256 * 0 = UInt8.toNat 1 ↔ _
  rw [Nat.mul_zero, Nat.add_zero, UInt8.toNat_inj]

theorem hasFormat_of_decode (h : decode bytes = .ok m) :
    HasFormat bytes ∧ m.rows = rowsOfBody (rowsCounted bytes) (bytes.drop headerLength) := by
  unfold decode at h
  simp only at h
  split_ifs at h with hlong hmagic helement hreserved hcolumns hbody
  push Not at hlong hmagic helement hreserved hcolumns hbody
  split at h
  next m' hm =>
    obtain rfl := Except.ok.inj h
    have hrows : rowsOfBody (rowsCounted bytes) (bytes.drop headerLength) = m'.rows :=
      Matrix.ofRows?_eq_iff.1 hm
    have hcount : m'.rowCount = rowsCounted bytes := by rw [Matrix.rowCount, ← hrows, length_rowsOfBody]
    refine ⟨⟨hlong, hmagic, (elementType_iff hlong).1 helement, hreserved, hcolumns, ?_, ?_⟩, hrows.symm⟩
    · rw [← hcount]
      exact List.length_pos_iff.2 m'.rows_ne_nil
    · rw [List.length_drop, headerLength, rowLength] at hbody
      rw [headerLength] at hlong
      unfold rowsCounted
      omega
  next => cases h

theorem exists_decode_of_hasFormat (h : HasFormat bytes) : ∃ m, decode bytes = .ok m := by
  have hrows : rowsCounted bytes < 2 ^ 32 := by
    have hlt := ofLittleEndian_lt (slice bytes 8 4)
    rwa [length_slice (by have := h.long; omega)] at hlt
  have hbody : (bytes.drop headerLength).length = rowsCounted bytes * rowLength := by
    rw [List.length_drop, headerLength, rowLength, h.length]; omega
  have hne : rowsOfBody (rowsCounted bytes) (bytes.drop headerLength) ≠ [] := by
    rw [← List.length_pos_iff, length_rowsOfBody]; exact h.rows
  have hheader : bytes = header (rowsCounted bytes) ++ bytes.drop headerLength :=
    eq_header_append h.long h.magic ((elementType_iff h.long).2 h.elementType) h.reserved rfl h.columns
  have hdecode := decode_header_append hrows (bytes.drop headerLength)
  rw [← hheader, if_neg (not_not.2 hbody), Matrix.ofRows?, dif_pos hne] at hdecode
  exact ⟨_, hdecode⟩

theorem holds_of_rows (h : m.rows = rowsOfBody (rowsCounted bytes) (bytes.drop headerLength)) :
    Holds bytes m := by
  refine ⟨by rw [Matrix.rowCount, h, length_rowsOfBody], fun i sample hi metric => ?_⟩
  have hlt : i < rowsCounted bytes := by
    have := (List.getElem?_eq_some_iff.1 hi).1
    rwa [h, length_rowsOfBody] at this
  rw [h, getElem?_rowsOfBody hlt] at hi
  rw [← Option.some_inj.1 hi, get_sampleOfBytes, toNat_valueAt, slice_row]

theorem Holds.unique (h : Holds bytes m) (h' : Holds bytes m') : m = m' := by
  have hrows : m.rows = m'.rows := by
    refine List.ext_getElem (h.rowCount.trans h'.rowCount.symm) fun i hi hi' => Sample.ext_get fun metric => ?_
    rw [← Value.toNat_bits_inj, h.bits i _ (List.getElem?_eq_getElem hi),
      h'.bits i _ (List.getElem?_eq_getElem hi')]
  cases m
  cases m'
  rw [Matrix.mk.injEq]
  exact hrows

theorem decode_eq_ok : decode bytes = .ok m ↔ HasFormat bytes ∧ Holds bytes m := by
  constructor
  · intro h
    obtain ⟨hformat, hrows⟩ := hasFormat_of_decode h
    exact ⟨hformat, holds_of_rows hrows⟩
  · rintro ⟨hformat, hm⟩
    obtain ⟨m', h⟩ := exists_decode_of_hasFormat hformat
    rw [h, (holds_of_rows (hasFormat_of_decode h).2).unique hm]

/-! ### A reader that can be trapped -/

/-- What would stop a reader that did not know beforehand what it will meet. -/
inductive Trap where
  /-- A place behind the end of the bytes. -/
  | outOfBounds
  /-- A number that 64 bits cannot hold. -/
  | overflow
deriving DecidableEq, Repr

/-- A number in 64 bits. -/
def word (n : Nat) : Except Trap Nat :=
  if n < 2 ^ 64 then .ok n else .error .overflow

/-- `length` bytes from `start` on, all of which have to be there. -/
def guardedSlice (bytes : List UInt8) (start length : Nat) : Except Trap (List UInt8) :=
  if start + length ≤ bytes.length then .ok (slice bytes start length) else .error .outOfBounds

def guardedNumber (bytes : List UInt8) (start length : Nat) : Except Trap Nat :=
  (guardedSlice bytes start length).map ofLittleEndian

/-- The value at a row and a column of all bytes. -/
def guardedValue (bytes : List UInt8) (row : Nat) (metric : Metric) : Except Trap Value := do
  let start ← word (headerLength + rowLength * row + 8 * metric.column)
  let bits ← guardedNumber bytes start 8
  return ⟨UInt64.ofNat bits⟩

def guardedSample (bytes : List UInt8) (row : Nat) : Except Trap Sample := do
  let packets ← guardedValue bytes row .packets
  let retransmissions ← guardedValue bytes row .retransmissions
  let lossPercent ← guardedValue bytes row .lossPercent
  let fragments ← guardedValue bytes row .fragments
  let frames ← guardedValue bytes row .frames
  let bytes' ← guardedValue bytes row .bytes
  let time ← guardedValue bytes row .time
  let secondaryTime ← guardedValue bytes row .secondaryTime
  return ⟨packets, retransmissions, lossPercent, fragments, frames, bytes', time, secondaryTime⟩

/-- Decodes with the checks of `decode`, each read and each product guarded. -/
def decodeGuarded (bytes : List UInt8) : Except Trap (Except BlobFault Matrix) := do
  if bytes.length < headerLength then return .error (.tooShort bytes.length)
  if (← guardedSlice bytes 0 4) ≠ magic then return .error .badMagic
  let element ← guardedNumber bytes 4 1
  if element ≠ elementType.toNat then return .error (.elementType element)
  if (← guardedSlice bytes 5 3) ≠ [0, 0, 0] then return .error .reservedBytes
  let columns ← guardedNumber bytes 12 4
  if columns ≠ columnCount then return .error (.columns columns)
  let rows ← guardedNumber bytes 8 4
  let promised ← word (rows * rowLength)
  let found := bytes.length - headerLength
  if found ≠ promised then return .error (.bodyLength found promised)
  let samples ← (List.range rows).mapM (guardedSample bytes)
  match Matrix.ofRows? samples with
  | some m => return .ok m
  | none => return .error .noRows

theorem word_eq {n : Nat} (h : n < 2 ^ 64) : word n = .ok n :=
  if_pos h

theorem guardedSlice_eq (h : start + length ≤ bytes.length) :
    guardedSlice bytes start length = .ok (slice bytes start length) :=
  if_pos h

theorem guardedNumber_eq (h : start + length ≤ bytes.length) :
    guardedNumber bytes start length = .ok (ofLittleEndian (slice bytes start length)) := by
  rw [guardedNumber, guardedSlice_eq h]; rfl

theorem rowsCounted_lt (bytes : List UInt8) : rowsCounted bytes < 2 ^ 32 := by
  have hlength : (slice bytes 8 4).length ≤ 4 := by rw [slice, List.length_take]; omega
  exact (ofLittleEndian_lt _).trans_le (Nat.pow_le_pow_right (n := 256) (by decide) hlength)

theorem guardedSample_eq (hlength : bytes.length = 16 + rowsCounted bytes * 64) (hi : i < rowsCounted bytes) :
    guardedSample bytes i = .ok (sampleOfBytes (slice (bytes.drop headerLength) (64 * i) 64)) := by
  have hrows := rowsCounted_lt bytes
  have hvalue (metric : Metric) : guardedValue bytes i metric
      = .ok (valueAt (slice (bytes.drop headerLength) (64 * i) 64) metric.column) := by
    have hcolumn := column_lt metric
    have hword : word (headerLength + rowLength * i + 8 * metric.column)
        = .ok (16 + 64 * i + 8 * metric.column) := word_eq (by rw [headerLength, rowLength]; omega)
    rw [guardedValue, hword, ok_bind, guardedNumber_eq (by omega), valueAt, slice_row]
    rfl
  simp only [guardedSample, hvalue]
  rfl

theorem mapM_guardedSample (hlength : bytes.length = 16 + rowsCounted bytes * 64) :
    (List.range (rowsCounted bytes)).mapM (guardedSample bytes)
      = .ok (rowsOfBody (rowsCounted bytes) (bytes.drop headerLength)) := by
  rw [mapM_eq_ok fun i hi => guardedSample_eq hlength (List.mem_range.1 hi)]
  refine congrArg Except.ok (List.ext_getElem? fun i => ?_)
  by_cases hi : i < rowsCounted bytes
  · rw [getElem?_rowsOfBody hi, List.getElem?_map, List.getElem?_range hi]
    rfl
  · rw [List.getElem?_eq_none (by simpa using hi), List.getElem?_eq_none (by rw [length_rowsOfBody]; omega)]

theorem decodeGuarded_eq (bytes : List UInt8) : decodeGuarded bytes = .ok (decode bytes) := by
  by_cases hlong : bytes.length < headerLength
  · simp only [decodeGuarded, decode, if_pos hlong]
    rfl
  have hlong' : 16 ≤ bytes.length := Nat.le_of_not_lt hlong
  have hproduct : word (rowsCounted bytes * rowLength) = .ok (rowsCounted bytes * rowLength) := by
    -- the count has four bytes, so the product stays below 2 ^ 38
    have hrows := rowsCounted_lt bytes
    exact word_eq (by rw [rowLength]; omega)
  unfold rowsCounted at hproduct
  have hmagic : guardedSlice bytes 0 4 = .ok (bytes.take 4) := guardedSlice_eq (by omega)
  have helement := guardedNumber_eq (show 4 + 1 ≤ bytes.length by omega)
  have hreserved := guardedSlice_eq (show 5 + 3 ≤ bytes.length by omega)
  have hrows := guardedNumber_eq (show 8 + 4 ≤ bytes.length by omega)
  have hcolumns := guardedNumber_eq (show 12 + 4 ≤ bytes.length by omega)
  simp only [decodeGuarded, decode, if_neg hlong, hmagic, helement, hreserved, hcolumns, hrows, hproduct,
    ok_bind, List.length_drop]
  split_ifs with _ _ _ _ hbody
  · rfl
  · rfl
  · rfl
  · rfl
  · rfl
  · -- only here, with the length checked, are the values read
    have hlength : bytes.length = 16 + rowsCounted bytes * 64 := by
      rw [headerLength, rowLength] at hbody
      rw [rowsCounted]
      omega
    rw [← rowsCounted, mapM_guardedSample hlength, ok_bind]
    cases Matrix.ofRows? (rowsOfBody (rowsCounted bytes) (bytes.drop headerLength)) <;> rfl

/-- Bytes are read as a matrix exactly if they have the format of a blob and each value of the matrix has the
bits that stand at its place, and there is such a matrix for all bytes with the format. Other bytes are
refused. Whatever the bytes are, nothing is read behind their end and no number outgrows 64 bits. -/
theorem decode_format (bytes : List UInt8) :
    (∀ m, Codec.blob.decode bytes = .ok m ↔ HasFormat bytes ∧ Holds bytes m) ∧
    ((∃ m, Codec.blob.decode bytes = .ok m) ↔ HasFormat bytes) ∧
    ((∃ fault, Codec.blob.decode bytes = .error fault) ↔ ¬HasFormat bytes) ∧
    decodeGuarded bytes = .ok (Codec.blob.decode bytes) := by
  have hok : (∃ m, decode bytes = .ok m) ↔ HasFormat bytes :=
    ⟨fun ⟨_, h⟩ => (hasFormat_of_decode h).1, exists_decode_of_hasFormat⟩
  refine ⟨fun m => decode_eq_ok, hok, ?_, decodeGuarded_eq bytes⟩
  show (∃ fault, decode bytes = .error fault) ↔ _
  rw [← hok]
  cases decode bytes <;> simp

end Blob
end Campaign
