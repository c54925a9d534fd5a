import Mathlib
import Campaign.Blob

/-!
# Reading blobs back

A codec is `Faithful` if it reads back what it has written, for every matrix whose row count fits into
four bytes. The blob codec is, and a tag in front changes nothing about it.
-/

namespace Campaign

@[simp] theorem length_littleEndian (width n : Nat) : (littleEndian width n).length = width := by
  induction width generalizing n with
  | zero => rfl
  | succ width ih => simp [littleEndian, ih]

theorem ofLittleEndian_littleEndian (width n : Nat) :
    ofLittleEndian (littleEndian width n) = n % 256 ^ width := by
  induction width generalizing n with
  | zero => simp [littleEndian, ofLittleEndian, Nat.mod_one]
  | succ width ih =>
    rw [littleEndian, ofLittleEndian, ih, Nat.pow_succ', Nat.mod_mul, UInt8.toNat_ofNat']

namespace Blob

@[simp] theorem length_valueBytes (v : Value) : (valueBytes v).length = 8 := length_littleEndian _ _

@[simp] theorem length_sampleBytes (s : Sample) : (sampleBytes s).length = rowLength := by
  simp [sampleBytes, Sample.values, Metric.all, rowLength]

theorem ofLittleEndian_valueBytes (v : Value) : UInt64.ofNat (ofLittleEndian (valueBytes v)) = v.bits := by
  rw [valueBytes, ofLittleEndian_littleEndian, Nat.mod_eq_of_lt (show _ < 256 ^ 8 from v.bits.toNat_lt),
    UInt64.ofNat_toNat]

theorem length_body (rows : List Sample) : (rows.flatMap sampleBytes).length = rows.length * rowLength := by
  induction rows with
  | nil => simp
  | cons s rows ih =>
    simp only [List.flatMap_cons, List.length_append, length_sampleBytes, ih, List.length_cons]
    ring

/-- In a row of pieces of one length, the piece at a place. -/
theorem slice_flatMap {α : Type} {f : α → List UInt8} {width : Nat} (hf : ∀ a, (f a).length = width)
    {as : List α} {i : Nat} {a : α} (h : as[i]? = some a) : slice (as.flatMap f) (width * i) width = f a := by
  induction as generalizing i with
  | nil => simp at h
  | cons b as ih =>
    cases i with
    | zero =>
      obtain rfl : b = a := by simpa using h
      simp [slice, hf]
    | succ i =>
      rw [List.getElem?_cons_succ] at h
      rw [slice, List.flatMap_cons, Nat.mul_succ, Nat.add_comm, ← List.drop_drop, List.drop_left' (hf b)]
      exact ih h

theorem valueAt_sampleBytes (s : Sample) (metric : Metric) :
    valueAt (sampleBytes s) metric.column = s.get metric := by
  have h : s.values[metric.column]? = some (s.get metric) := by cases metric <;> rfl
  rw [valueAt, sampleBytes, slice_flatMap length_valueBytes h, ofLittleEndian_valueBytes]

theorem sampleOfBytes_sampleBytes (s : Sample) : sampleOfBytes (sampleBytes s) = s := by
  have h := valueAt_sampleBytes s
  show Sample.mk (valueAt _ Metric.packets.column) (valueAt _ Metric.retransmissions.column)
    (valueAt _ Metric.lossPercent.column) (valueAt _ Metric.fragments.column)
    (valueAt _ Metric.frames.column) (valueAt _ Metric.bytes.column) (valueAt _ Metric.time.column)
    (valueAt _ Metric.secondaryTime.column) = s
  simp only [h]
  rfl

theorem rowsOfBody_flatMap (rows : List Sample) :
    rowsOfBody rows.length (rows.flatMap sampleBytes) = rows := by
  induction rows with
  | nil => rfl
  | cons s rows ih =>
    rw [List.length_cons, rowsOfBody, List.flatMap_cons, List.take_left' (length_sampleBytes s),
      List.drop_left' (length_sampleBytes s), sampleOfBytes_sampleBytes, ih]

theorem header_eq (rows : Nat) :
    header rows = [84, 77, 88, 49, 1, 0, 0, 0] ++ littleEndian 4 rows ++ [8, 0, 0, 0] := rfl

@[simp] theorem length_header (rows : Nat) : (header rows).length = headerLength := by
  simp [header_eq, headerLength]

/-- Where the bytes start with a header, that is what `decode` reads there. -/
theorem decode_header_append {rows : Nat} (h : rows < 2 ^ 32) (body : List UInt8) :
    decode (header rows ++ body) =
      if body.length ≠ rows * rowLength then .error (.bodyLength body.length (rows * rowLength))
      else match Matrix.ofRows? (rowsOfBody rows body) with
        | some m => .ok m
        | none => .error .noRows := by
  have hlong : ¬(header rows ++ body).length < headerLength := by simp
  have hmagic : (header rows ++ body).take 4 = magic := rfl
  have helement : ofLittleEndian (slice (header rows ++ body) 4 1) = elementType.toNat := rfl
  have hreserved : slice (header rows ++ body) 5 3 = [0, 0, 0] := rfl
  have hrows : slice (header rows ++ body) 8 4 = littleEndian 4 rows := by
    simp [slice, header_eq, List.take_left']
  have hcolumns : slice (header rows ++ body) 12 4 = [8, 0, 0, 0] := by
    simp [slice, header_eq, List.drop_left']
  have hbody : (header rows ++ body).drop headerLength = body := List.drop_left' (length_header rows)
  simp only [decode, hlong, hmagic, helement, hreserved, hrows, hcolumns, hbody, ofLittleEndian_littleEndian,
    Nat.mod_eq_of_lt (show rows < 256 ^ 4 by omega)]
  rfl

theorem decode_encode {m : Matrix} (h : m.rowCount < 2 ^ 32) : decode (encode m) = .ok m := by
  rw [encode, decode_header_append h, Matrix.rowCount, length_body, rowsOfBody_flatMap, Matrix.ofRows?,
    dif_pos m.rows_ne_nil]
  simp

end Blob

namespace Codec

/-- What the codec has written it reads back, as long as the rows can be counted in four bytes. -/
def Faithful (c : Codec) : Prop :=
  ∀ m : Matrix, m.rowCount < 2 ^ 32 → c.decode (c.encode m) = .ok m

theorem faithful_blob : blob.Faithful := fun _ h => Blob.decode_encode h

theorem Faithful.tagged {c : Codec} (h : c.Faithful) : c.tagged.Faithful := h

end Codec
end Campaign
