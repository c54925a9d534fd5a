import Mathlib
import Campaign.Proofs.Blob

/-!
# One blob for each matrix

A blob is read only if it is, byte for byte, what is written of the matrix that is read
(`decode_eq_ok_iff`). A matrix whose rows four bytes cannot count is written with a header that does not
fit its body, so its blob is not read at all.
-/

namespace Campaign

theorem ofLittleEndian_lt (bytes : List UInt8) : ofLittleEndian bytes < 256 ^ bytes.length := by
  induction bytes with
  | nil => simp [ofLittleEndian]
  | cons b bytes ih =>
    have hb : b.toNat < 256 := b.toNat_lt
    rw [ofLittleEndian, List.length_cons, Nat.pow_succ]
    omega

theorem littleEndian_ofLittleEndian (bytes : List UInt8) :
    littleEndian bytes.length (ofLittleEndian bytes) = bytes := by
  induction bytes with
  | nil => rfl
  | cons b bytes ih =>
    have hb : b.toNat < 256 := b.toNat_lt
    have hlow : UInt8.ofNat (b.toNat + 256 * ofLittleEndian bytes) = b := by
      rw [← UInt8.toNat_inj, UInt8.toNat_ofNat']; omega
    have hhigh : (b.toNat + 256 * ofLittleEndian bytes) / 256 = ofLittleEndian bytes := by omega
    rw [List.length_cons, ofLittleEndian, littleEndian, hlow, hhigh, ih]

/-- Bytes are known from their number, once it is known how many they are. -/
theorem eq_littleEndian {bytes : List UInt8} {width n : Nat} (hl : bytes.length = width)
    (h : ofLittleEndian bytes = n) : bytes = littleEndian width n := by
  rw [← hl, ← h, littleEndian_ofLittleEndian]

namespace Blob
variable {row body bytes : List UInt8} {count rows start length column : Nat} {m : Matrix}

theorem length_slice (h : start + length ≤ bytes.length) : (slice bytes start length).length = length := by
  rw [slice, List.length_take, List.length_drop]; omega

/-- A slice and what follows it. -/
theorem slice_append_drop (bytes : List UInt8) (start length : Nat) :
    slice bytes start length ++ bytes.drop (start + length) = bytes.drop start := by
  rw [slice, ← List.drop_drop, List.take_append_drop]

/-! ### Rows -/

theorem valueBytes_valueAt (h : 8 * column + 8 ≤ row.length) :
    valueBytes (valueAt row column) = slice row (8 * column) 8 := by
  have hl := length_slice h
  have hlt : ofLittleEndian (slice row (8 * column) 8) < 2 ^ 64 := by
    have := ofLittleEndian_lt (slice row (8 * column) 8)
    rwa [hl] at this
  rw [valueBytes, valueAt, UInt64.toNat_ofNat', Nat.mod_eq_of_lt hlt]
  exact (eq_littleEndian hl rfl).symm

theorem sampleBytes_sampleOfBytes (h : row.length = rowLength) : sampleBytes (sampleOfBytes row) = row := by
  have hvalue (column : Nat) (hc : column < 8) :
      valueBytes (valueAt row column) ++ row.drop (8 * (column + 1)) = row.drop (8 * column) := by
    rw [valueBytes_valueAt (by rw [h, rowLength]; omega)]
    exact slice_append_drop _ _ _
  -- Column by column, the values eat up the row from its start, and nothing is left behind the eighth.
  have hend : row.drop (8 * 8) = [] := by rw [List.drop_eq_nil_of_le]; rw [h]; rfl
  calc sampleBytes (sampleOfBytes row)
      = valueBytes (valueAt row 0) ++ (valueBytes (valueAt row 1) ++ (valueBytes (valueAt row 2) ++
          (valueBytes (valueAt row 3) ++ (valueBytes (valueAt row 4) ++ (valueBytes (valueAt row 5) ++
          (valueBytes (valueAt row 6) ++ (valueBytes (valueAt row 7) ++ row.drop (8 * 8)))))))) := by
        rw [hend]; rfl
    _ = row := by
        rw [hvalue 7 (by omega), hvalue 6 (by omega), hvalue 5 (by omega), hvalue 4 (by omega),
          hvalue 3 (by omega), hvalue 2 (by omega), hvalue 1 (by omega), hvalue 0 (by omega)]
        rfl

theorem length_rowsOfBody (count : Nat) (body : List UInt8) : (rowsOfBody count body).length = count := by
  induction count generalizing body with
  | zero => rfl
  | succ count ih => rw [rowsOfBody, List.length_cons, ih]

theorem flatMap_rowsOfBody (h : body.length = count * rowLength) :
    (rowsOfBody count body).flatMap sampleBytes = body := by
  induction count generalizing body with
  | zero => exact (List.eq_nil_of_length_eq_zero (by simpa using h)).symm
  | succ count ih =>
    have hlong : rowLength ≤ body.length := by rw [h, Nat.succ_mul]; omega
    have hrest : (body.drop rowLength).length = count * rowLength := by
      rw [List.length_drop, h, Nat.succ_mul]; omega
    rw [rowsOfBody, List.flatMap_cons, sampleBytes_sampleOfBytes (List.length_take_of_le hlong), ih hrest,
      List.take_append_drop]

/-! ### Headers -/

/-- Bytes that pass the checks of a header start with that header. -/
theorem eq_header_append (hlong : headerLength ≤ bytes.length) (hmagic : bytes.take 4 = magic)
    (helement : ofLittleEndian (slice bytes 4 1) = elementType.toNat) (hreserved : slice bytes 5 3 = [0, 0, 0])
    (hrows : ofLittleEndian (slice bytes 8 4) = rows)
    (hcolumns : ofLittleEndian (slice bytes 12 4) = columnCount) :
    bytes = header rows ++ bytes.drop headerLength := by
  rw [headerLength] at hlong
  have helement := eq_littleEndian (length_slice (by omega)) helement
  have hrows := eq_littleEndian (length_slice (by omega)) hrows
  have hcolumns := eq_littleEndian (length_slice (by omega)) hcolumns
  calc bytes
      = bytes.take 4 ++ (slice bytes 4 1 ++ (slice bytes 5 3 ++ (slice bytes 8 4 ++
          (slice bytes 12 4 ++ bytes.drop 16)))) := by
        rw [slice_append_drop bytes 12 4, slice_append_drop bytes 8 4, slice_append_drop bytes 5 3,
          slice_append_drop bytes 4 1, List.take_append_drop]
    _ = header rows ++ bytes.drop 16 := by
        rw [hmagic, helement, hreserved, hrows, hcolumns]
        simp only [header, List.append_assoc]
        rfl

/-- What has been read of bytes: a header and a body of the length that it promises. -/
theorem exists_of_decode_eq_ok (h : decode bytes = .ok m) : ∃ rows body, rows < 2 ^ 32 ∧
    bytes = header rows ++ body ∧ body.length = rows * rowLength ∧ m.rows = rowsOfBody rows body := by
  unfold decode at h
  simp only at h
  split_ifs at h with hlong hmagic helement hreserved hcolumns hbody
  push Not at hlong hmagic helement hreserved hcolumns hbody
  refine ⟨_, _, ?_, eq_header_append hlong hmagic helement hreserved rfl hcolumns, hbody, ?_⟩
  · have hlt := ofLittleEndian_lt (slice bytes 8 4)
    rwa [length_slice (by rw [headerLength] at hlong; omega)] at hlt
  · split at h
    next m' hm =>
      obtain rfl := Except.ok.inj h
      unfold Matrix.ofRows? at hm
      split_ifs at hm
      rw [← Option.some_inj.1 hm]
    next => cases h

/-- Only the lowest four bytes of the row count are written. -/
theorem header_mod (rows : Nat) : header (rows % 2 ^ 32) = header rows := by
  have h : littleEndian 4 (rows % 2 ^ 32) = littleEndian 4 rows := by
    refine (eq_littleEndian (length_littleEndian 4 rows) ?_).symm
    exact ofLittleEndian_littleEndian 4 rows
  rw [header, header, h]

/-- What is read of the bytes of a matrix, however many rows it has. -/
theorem decode_encode_eq (m : Matrix) : decode (encode m) =
    if m.rowCount < 2 ^ 32 then .ok m
    else .error (.bodyLength (m.rowCount * rowLength) (m.rowCount % 2 ^ 32 * rowLength)) := by
  split_ifs with h
  · exact decode_encode h
  · have hwrap : m.rowCount * rowLength ≠ m.rowCount % 2 ^ 32 * rowLength := by
      rw [rowLength]; omega
    rw [encode, ← header_mod, decode_header_append (Nat.mod_lt _ (by decide)), length_body]
    exact if_pos hwrap

/-- Bytes are read as a matrix exactly if they are what is written of it and four bytes can count its
rows. What is written of a larger matrix is not read as any matrix: the length of its body is not the one
that the header promises. Values are compared bit for bit. -/
theorem decode_eq_ok_iff (bytes : List UInt8) (m : Matrix) :
    (Codec.blob.decode bytes = .ok m ↔ m.rowCount < 2 ^ 32 ∧ Codec.blob.encode m = bytes) ∧
    Codec.blob.decode (Codec.blob.encode m) =
      if m.rowCount < 2 ^ 32 then .ok m
      else .error (.bodyLength (m.rowCount * rowLength) (m.rowCount % 2 ^ 32 * rowLength)) := by
  refine ⟨⟨fun h => ?_, ?_⟩, decode_encode_eq m⟩
  · obtain ⟨rows, body, hrows, rfl, hbody, hm⟩ := exists_of_decode_eq_ok h
    have hcount : m.rowCount = rows := by rw [Matrix.rowCount, hm, length_rowsOfBody]
    refine ⟨hcount ▸ hrows, ?_⟩
    show header m.rowCount ++ m.rows.flatMap sampleBytes = _
    rw [hcount, hm, flatMap_rowsOfBody hbody]
  · rintro ⟨hm, rfl⟩
    exact decode_encode hm

end Blob
end Campaign
